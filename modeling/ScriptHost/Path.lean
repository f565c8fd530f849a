/-!
# Paths with `/` as separator

A path has a *lead*, the `/` of an absolute path or the `.` that opens a
relative one, and a body of names between separators. Empty names and `.` in
the body say nothing: `components` leaves them out, and `parent?` drops them
from the end before and after it takes the last name away.
-/
namespace ScriptHost.Path

/-- One step of a path. -/
inductive Component where
  | root
  | here
  | up
  | name (n : List Char)
  deriving DecidableEq, Repr

/-- Number of characters in the lead: a root, or a `.` that is a name of its own. -/
def leadLength : List Char → Nat
  | '/' :: _ => 1
  | ['.'] => 1
  | '.' :: '/' :: _ => 1
  | _ => 0

/-- The names between separators, at least one. -/
def names : List Char → List (List Char)
  | [] => [[]]
  | c :: r =>
    if c = '/' then [] :: names r
    else match names r with
      | n :: ns => (c :: n) :: ns
      | [] => [[c]]

/-- A name of the body as a component; empty names and `.` are none. -/
def Component.ofName? (n : List Char) : Option Component :=
  if n = [] ∨ n = ['.'] then none
  else if n = ['.', '.'] then some .up
  else some (.name n)

/-- The lead as a component. -/
def leadComponents : List Char → List Component
  | '/' :: _ => [.root]
  | ['.'] => [.here]
  | '.' :: '/' :: _ => [.here]
  | _ => []

/-- The components of a path. -/
def components (path : List Char) : List Component :=
  leadComponents path ++ (names (path.drop (leadLength path))).filterMap Component.ofName?

/-- A reversed body without the empty names and `.` at its end. -/
def trimEnd : List Char → List Char
  | '/' :: r => trimEnd r
  | ['.'] => []
  | '.' :: '/' :: r => trimEnd r
  | r => r

/-- The path without its last component; none for an empty path and for the root. -/
def parent? (path : List Char) : Option (List Char) :=
  let lead := path.take (leadLength path)
  match trimEnd (path.drop (leadLength path)).reverse with
  | [] => if lead = ['.'] then some [] else none
  | body => some (lead ++ (trimEnd ((body.dropWhile (· ≠ '/')).drop 1)).reverse)

/-- The last component when it is a name; none after `..` and for a bare lead. -/
def fileName? (path : List Char) : Option (List Char) :=
  match (components path).getLast? with
  | some (.name n) => some n
  | _ => none

end ScriptHost.Path
