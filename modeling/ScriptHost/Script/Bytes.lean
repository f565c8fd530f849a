import ScriptHost.Text.Utf8

/-!
# Byte strings

The strings of a script are sequences of bytes of any value, ordered as
unsigned bytes with a prefix before what extends it.
-/
namespace ScriptHost.Script

/-- A string of a script. -/
abbrev Bytes := ByteArray

namespace Bytes

/-- The UTF-8 bytes of a text. -/
def ofText (s : String) : Bytes := s.toUTF8

/-- The text, with U+FFFD for what is not UTF-8. -/
def toText (b : Bytes) : String := Utf8.lossy b.toList

def ofList (l : List UInt8) : Bytes := l.foldl .push .empty

/-- Bytes `start` to `stop`, without the latter; indices beyond the end are cut. -/
def slice (b : Bytes) (start stop : Nat) : Bytes := b.extract start stop

/-- The byte at an index, 0 behind the end. -/
def at0 (b : Bytes) (i : Nat) : UInt8 := b[i]?.getD 0

/-- Compares from index `i` on; `fuel` is at least the number of common indices. -/
def lessFrom (a b : Bytes) : Nat → Nat → Bool
  | 0, _ => a.size < b.size
  | fuel + 1, i =>
    if i < a.size ∧ i < b.size then
      if at0 a i = at0 b i then lessFrom a b fuel (i + 1) else at0 a i < at0 b i
    else a.size < b.size

/-- The order of strings. -/
def less (a b : Bytes) : Bool := lessFrom a b (min a.size b.size) 0

/-- `pattern` stands at index `i`. -/
def isAt (s pattern : Bytes) (i : Nat) : Bool :=
  i + pattern.size ≤ s.size && s.extract i (i + pattern.size) == pattern

/-- The first index from `i` on at which `pattern` stands; `fuel` indices are tried. -/
def findFrom (s pattern : Bytes) : Nat → Nat → Option Nat
  | 0, _ => none
  | fuel + 1, i => if isAt s pattern i then some i else findFrom s pattern fuel (i + 1)

/-- The first index from `i` on at which `pattern` stands. -/
def find? (s pattern : Bytes) (i : Nat) : Option Nat :=
  findFrom s pattern (s.size + 1 - i) i

/-- `n` copies of `b`, with `sep` between them. -/
def replicate (n : Nat) (b sep : Bytes) : Bytes :=
  n.fold (fun i _ out => (if i = 0 then out else out ++ sep) ++ b) .empty

/-- Replaces every `old` (not empty) by `new`, from the left. -/
def replaceFrom (s old new : Bytes) : Nat → Nat → Bytes → Bytes
  | 0, _, out => out
  | fuel + 1, i, out =>
    match s.find? old i with
    | some j => replaceFrom s old new fuel (j + old.size) (out ++ s.extract i j ++ new)
    | none => out ++ s.extract i s.size

/-- Replaces every `old` by `new`, from the left. -/
def replace (s old new : Bytes) : Bytes :=
  if old.isEmpty then s else replaceFrom s old new (s.size + 1) 0 .empty

/-- The pieces of `s` between the bytes `sep`, at least one. -/
def split (s : Bytes) (sep : UInt8) : List Bytes :=
  let (last, done) := s.foldl (fun (cur, done) c =>
    if c = sep then (ByteArray.empty, cur :: done) else (cur.push c, done)) (ByteArray.empty, [])
  (last :: done).reverse

/-- The bytes before the first NUL, which are all that a function in C sees of a string. -/
def untilNul (b : Bytes) : Bytes := ⟨(b.data.toList.takeWhile (· ≠ 0)).toArray⟩

/-! ## Classes of bytes -/

def isDigit (c : UInt8) : Bool := 48 ≤ c && c ≤ 57
def isLower (c : UInt8) : Bool := 97 ≤ c && c ≤ 122
def isUpper (c : UInt8) : Bool := 65 ≤ c && c ≤ 90
def isAlpha (c : UInt8) : Bool := isLower c || isUpper c
def isAlnum (c : UInt8) : Bool := isAlpha c || isDigit c
def isSpace (c : UInt8) : Bool := c = 32 || (9 ≤ c && c ≤ 13)
def isControl (c : UInt8) : Bool := c < 32 || c = 127
def isPrint (c : UInt8) : Bool := 32 ≤ c && c ≤ 126
def isGraph (c : UInt8) : Bool := 33 ≤ c && c ≤ 126
def isPunct (c : UInt8) : Bool := isGraph c && !isAlnum c
def isHexDigit (c : UInt8) : Bool := isDigit c || (97 ≤ c && c ≤ 102) || (65 ≤ c && c ≤ 70)
def toLower (c : UInt8) : UInt8 := if isUpper c then c + 32 else c
def toUpper (c : UInt8) : UInt8 := if isLower c then c - 32 else c

/-- The value of a hexadecimal digit. -/
def hexValue (c : UInt8) : Nat :=
  if isDigit c then (c - 48).toNat else (toLower c - 87).toNat

/-- Applies a function to every byte. -/
def map (f : UInt8 → UInt8) (b : Bytes) : Bytes := b.foldl (fun out c => out.push (f c)) .empty

/-- The bytes from last to first. -/
def reverse (b : Bytes) : Bytes := ofList b.toList.reverse

/-- A text behind, between and before byte strings. -/
def cat (parts : List Bytes) : Bytes := parts.foldl (· ++ ·) .empty

end Bytes
end ScriptHost.Script
