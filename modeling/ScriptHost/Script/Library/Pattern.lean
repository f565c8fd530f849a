import ScriptHost.Script.Bytes

/-!
# Patterns

Matching of a pattern at a place of a subject string. A pattern is a sequence
of items: a class of bytes that may be repeated, a capture, a balanced pair, a
frontier, a capture seen before, and an anchor at the end. Repetitions take as
many bytes as they can (`-` as few) and give back one at a time.
-/
namespace ScriptHost.Script.Pattern

/-- How far a capture has come. -/
inductive Extent where
  /-- It has begun and not ended. -/
  | open
  /-- It holds a place and no text. -/
  | position
  | closed (size : Nat)
  deriving DecidableEq, Repr, Inhabited

/-- A part of the subject that the pattern names. -/
structure Capture where
  start : Nat
  extent : Extent
  deriving DecidableEq, Repr, Inhabited

/-- What is matched. -/
structure Problem where
  subject : Bytes
  pattern : Bytes

/-- How deep items may be nested. -/
def maxDepth : Nat := 200

/-- How many captures a pattern may have. -/
def maxCaptures : Nat := 32

/-- The outcome at one place: the end of the match and its captures, or no match. -/
abbrev Found := Option (Nat × Array Capture)

def escape : UInt8 := 0x25

/-- Membership in the class of a letter; the capital letter is the complement. -/
def inClass (c cl : UInt8) : Bool :=
  let positive? : Option Bool := match Char.ofNat (Bytes.toLower cl).toNat with
    | 'a' => some (Bytes.isAlpha c)
    | 'c' => some (Bytes.isControl c)
    | 'd' => some (Bytes.isDigit c)
    | 'g' => some (Bytes.isGraph c)
    | 'l' => some (Bytes.isLower c)
    | 'p' => some (Bytes.isPunct c)
    | 's' => some (Bytes.isSpace c)
    | 'u' => some (Bytes.isUpper c)
    | 'w' => some (Bytes.isAlnum c)
    | 'x' => some (Bytes.isHexDigit c)
    | _ => none
  match positive? with
  | some b => if Bytes.isUpper cl then !b else b
  | none => cl = c

/-- Membership in a set whose bracket stands before `p` and closes at `stop`. -/
def inSetFrom (pat : Bytes) (c : UInt8) (stop : Nat) : Nat → Nat → Bool
  | 0, _ => false
  | fuel + 1, p =>
    if p ≥ stop then false
    else
      let x := Bytes.at0 pat p
      if x = escape then inClass c (Bytes.at0 pat (p + 1)) || inSetFrom pat c stop fuel (p + 2)
      else if Bytes.at0 pat (p + 1) = 0x2D ∧ p + 2 < stop then
        (x ≤ c && c ≤ Bytes.at0 pat (p + 2)) || inSetFrom pat c stop fuel (p + 3)
      else x = c || inSetFrom pat c stop fuel (p + 1)

/-- Membership in the set `[...]` from `p` (the bracket) to `stop` (the closing bracket). -/
def inSet (pat : Bytes) (c : UInt8) (p stop : Nat) : Bool :=
  if Bytes.at0 pat (p + 1) = 0x5E then !inSetFrom pat c stop pat.size (p + 2)
  else inSetFrom pat c stop pat.size (p + 1)

/-- The end of a set, from behind its bracket. -/
def setEnd (pat : Bytes) : Nat → Nat → Except String Nat
  | 0, _ => .error "malformed pattern (missing ']')"
  | fuel + 1, p =>
    if p ≥ pat.size then .error "malformed pattern (missing ']')"
    else
      let next := if Bytes.at0 pat p = escape ∧ p + 1 < pat.size then p + 2 else p + 1
      if Bytes.at0 pat next = 0x5D ∧ next < pat.size then .ok (next + 1) else setEnd pat fuel next

/-- The place behind the class of bytes at `p`. -/
def classEnd (pat : Bytes) (p : Nat) : Except String Nat :=
  let c := Bytes.at0 pat p
  if c = escape then
    if p + 1 ≥ pat.size then .error "malformed pattern (ends with '%')" else .ok (p + 2)
  else if c = 0x5B then
    setEnd pat (pat.size + 1) (if Bytes.at0 pat (p + 1) = 0x5E then p + 2 else p + 1)
  else .ok (p + 1)

/-- The byte at `s` is in the class from `p` to `stop`. -/
def matchesOne (pr : Problem) (s p stop : Nat) : Bool :=
  if s ≥ pr.subject.size then false
  else
    let c := Bytes.at0 pr.subject s
    let x := Bytes.at0 pr.pattern p
    if x = 0x2E then true
    else if x = escape then inClass c (Bytes.at0 pr.pattern (p + 1))
    else if x = 0x5B then inSet pr.pattern c p (stop - 1)
    else x = c

/-- The place behind the balanced pair that opens before `s`. -/
def balance (subject : Bytes) (opening closing : UInt8) : Nat → Nat → Nat → Option Nat
  | 0, _, _ => none
  | fuel + 1, s, depth =>
    if s ≥ subject.size then none
    else
      let c := Bytes.at0 subject s
      if c = closing then
        if depth ≤ 1 then some (s + 1) else balance subject opening closing fuel (s + 1) (depth - 1)
      else if c = opening then balance subject opening closing fuel (s + 1) (depth + 1)
      else balance subject opening closing fuel (s + 1) depth

/-- Counts how often the class matches from `s` on. -/
def countMatches (pr : Problem) (p stop : Nat) : Nat → Nat → Nat → Nat
  | 0, _, n => n
  | fuel + 1, s, n =>
    if matchesOne pr s p stop then countMatches pr p stop fuel (s + 1) (n + 1) else n

/-- Tries the rest behind `n`, `n - 1`, ... 0 matches. -/
def tryDown (rest : Nat → Except String Found) (s : Nat) : Nat → Except String Found
  | 0 => rest s
  | n + 1 => do
    match ← rest (s + n + 1) with
    | some r => pure (some r)
    | none => tryDown rest s n

/-- Tries the rest behind 0, 1, ... matches. -/
def tryUp (pr : Problem) (p stop : Nat) (rest : Nat → Except String Found) :
    Nat → Nat → Except String Found
  | 0, _ => pure none
  | fuel + 1, s => do
    match ← rest s with
    | some r => pure (some r)
    | none => if matchesOne pr s p stop then tryUp pr p stop rest fuel (s + 1) else pure none

/-- The capture that a closing parenthesis ends. -/
def openCapture? (caps : Array Capture) : Nat → Option Nat
  | 0 => none
  | n + 1 => if (caps[n]?.getD default).extent = .open then some n else openCapture? caps n

/-- The capture that a digit names. -/
def capture (caps : Array Capture) (digit : UInt8) : Except String Capture :=
  let bad : Except String Capture := .error s!"invalid capture index %{(digit.toNat : Int) - 48}"
  if digit < 49 then bad
  else match caps[(digit - 49).toNat]? with
    | some c => if c.extent = .open then bad else .ok c
    | none => bad

/-- One level of nesting deeper. -/
def deeper (depth : Nat) (k : Nat → Except String Found) : Except String Found :=
  match depth with
  | 0 => .error "pattern too complex"
  | d + 1 => k d

/-- Matches the pattern from `p` on at place `s`. -/
def matchAt (pr : Problem) : Nat → Nat → Nat → Nat → Array Capture → Except String Found
  | 0, _, _, _, _ => .error "pattern too complex"
  | fuel + 1, depth, s, p, caps =>
    let pat := pr.pattern
    if p ≥ pat.size then pure (some (s, caps))
    else
      let single : Unit → Except String Found := fun _ => do
        let stop ← classEnd pat p
        let mark := Bytes.at0 pat stop
        let mark := if stop < pat.size then mark else 0
        if mark = 0x3F then
          if matchesOne pr s p stop then
            match ← deeper depth fun d => matchAt pr fuel d (s + 1) (stop + 1) caps with
            | some r => pure (some r)
            | none => matchAt pr fuel depth s (stop + 1) caps
          else matchAt pr fuel depth s (stop + 1) caps
        else if mark = 0x2A then
          let n := countMatches pr p stop (pr.subject.size + 1) s 0
          deeper depth fun d => tryDown (fun s => matchAt pr fuel d s (stop + 1) caps) s n
        else if mark = 0x2B then
          if matchesOne pr s p stop then
            let n := countMatches pr p stop (pr.subject.size + 1) (s + 1) 0
            deeper depth fun d => tryDown (fun s => matchAt pr fuel d s (stop + 1) caps) (s + 1) n
          else pure none
        else if mark = 0x2D then
          deeper depth fun d =>
            tryUp pr p stop (fun s => matchAt pr fuel d s (stop + 1) caps) (pr.subject.size + 2) s
        else if matchesOne pr s p stop then matchAt pr fuel depth (s + 1) stop caps
        else pure none
      let c := Bytes.at0 pat p
      let next := Bytes.at0 pat (p + 1)
      if c = 0x28 then
        if caps.size ≥ maxCaptures then .error "too many captures"
        else if next = 0x29 then
          deeper depth fun d => matchAt pr fuel d s (p + 2) (caps.push ⟨s, .position⟩)
        else deeper depth fun d => matchAt pr fuel d s (p + 1) (caps.push ⟨s, .open⟩)
      else if c = 0x29 then
        match openCapture? caps caps.size with
        | none => .error "invalid pattern capture"
        | some i =>
          let caps := caps.modify i fun x => { x with extent := .closed (s - x.start) }
          deeper depth fun d => matchAt pr fuel d s (p + 1) caps
      else if c = 0x24 ∧ p + 1 = pat.size then
        pure (if s = pr.subject.size then some (s, caps) else none)
      else if c = escape ∧ next = 0x62 then
        if p + 3 ≥ pat.size then .error "malformed pattern (missing arguments to '%b')"
        else
          let opening := Bytes.at0 pat (p + 2)
          if s < pr.subject.size ∧ Bytes.at0 pr.subject s = opening then
            match balance pr.subject opening (Bytes.at0 pat (p + 3)) (pr.subject.size + 1) (s + 1) 1 with
            | some s => matchAt pr fuel depth s (p + 4) caps
            | none => pure none
          else pure none
      else if c = escape ∧ next = 0x66 then
        if Bytes.at0 pat (p + 2) ≠ 0x5B then .error "missing '[' after '%f' in pattern"
        else do
          let stop ← classEnd pat (p + 2)
          let before := if s = 0 then 0 else Bytes.at0 pr.subject (s - 1)
          if !inSet pat before (p + 2) (stop - 1) && inSet pat (Bytes.at0 pr.subject s) (p + 2) (stop - 1) then
            matchAt pr fuel depth s stop caps
          else pure none
      else if c = escape ∧ Bytes.isDigit next then do
        let cap ← capture caps next
        match cap.extent with
        | .closed n =>
          let text := pr.subject.extract cap.start (cap.start + n)
          if pr.subject.isAt text s then matchAt pr fuel depth (s + text.size) (p + 2) caps
          else pure none
        | _ => pure none
      else single ()

/-- Matches a whole pattern (without an anchor at its start) at place `s`, with the pattern from
`p` on. -/
def Problem.run (pr : Problem) (s p : Nat) : Except String Found :=
  matchAt pr ((pr.subject.size + 2) * (pr.pattern.size + 2)) maxDepth s p #[]

/-- The first place from `s` on at which the pattern matches: start, end and captures. -/
def Problem.search (pr : Problem) (p : Nat) (anchored : Bool) :
    Nat → Nat → Except String (Option (Nat × Nat × Array Capture))
  | 0, _ => pure none
  | fuel + 1, s => do
    match ← pr.run s p with
    | some (e, caps) => pure (some (s, e, caps))
    | none =>
      if anchored ∨ s ≥ pr.subject.size then pure none else pr.search p anchored fuel (s + 1)

/-- The pattern begins with an anchor. -/
def Problem.isAnchored (pr : Problem) : Bool := Bytes.at0 pr.pattern 0 = 0x5E && 0 < pr.pattern.size

/-- The pattern has no byte of special meaning. -/
def isPlain (pattern : Bytes) : Bool :=
  !pattern.toList.any fun c => "^$*+?.([%-".toList.contains (Char.ofNat c.toNat)

end ScriptHost.Script.Pattern
