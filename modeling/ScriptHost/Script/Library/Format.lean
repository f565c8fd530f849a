import ScriptHost.Script.Host

/-!
# Formatted text

A format is text with directives; a directive is `%`, flags, a width and a
precision of at most two digits each, and a letter that says what the next
argument is.
-/
namespace ScriptHost.Script.Format

/-- A directive without its letter. -/
structure Spec where
  left : Bool := false
  plus : Bool := false
  space : Bool := false
  alternate : Bool := false
  zero : Bool := false
  width : Nat := 0
  precision : Option Nat := none
  deriving Inhabited

/-- The characters of a directive between `%` and the letter. -/
def isSpecByte (c : UInt8) : Bool := "-+ #0123456789.".toList.contains (Char.ofNat c.toNat)

/-- Up to two digits. -/
def twoDigits (s : List UInt8) : Nat × List UInt8 :=
  let ds := (s.take 2).takeWhile Bytes.isDigit
  (Number.decimalValue ds, s.drop ds.length)

/-- Reads flags (of those allowed), width and, where it is allowed, precision; none when something
is left over. -/
def Spec.read? (s : List UInt8) (flags : String) (precision : Bool) : Option Spec :=
  let allowed := s.takeWhile fun c => flags.toList.contains (Char.ofNat c.toNat)
  let has (c : Char) := allowed.contains (UInt8.ofNat c.toNat)
  let spec : Spec :=
    { left := has '-', plus := has '+', space := has ' ', alternate := has '#', zero := has '0' }
  let r := s.drop allowed.length
  let (width, r) := if r.head? = some 0x30 then (0, r) else twoDigits r
  match r with
  | [] => some { spec with width }
  | 0x2E :: r =>
    if precision then
      let (p, r) := twoDigits r
      if r.isEmpty then some { spec with width, precision := some p } else none
    else none
  | _ => none

/-- Fills a text up to the width; zeros go between the sign (`lead`) and the digits. -/
def Spec.fill (s : Spec) (lead body : List Char) (zeros : Bool) : List Char :=
  let n := lead.length + body.length
  let missing := s.width - n
  if s.left then lead ++ body ++ List.replicate missing ' '
  else if zeros then lead ++ List.replicate missing '0' ++ body
  else List.replicate missing ' ' ++ lead ++ body

def Spec.sign (s : Spec) (negative : Bool) : List Char :=
  if negative then ['-'] else if s.plus then ['+'] else if s.space then [' '] else []

/-- At least as many digits as the precision asks; with precision 0 a zero has none. -/
def Spec.digits (s : Spec) (base n : Nat) (upper : Bool) : List Char :=
  let ds := Nat.toDigits base n
  let ds := if upper then ds.map Char.toUpper else ds
  match s.precision with
  | none => ds
  | some 0 => if n = 0 then [] else ds
  | some p => List.replicate (p - ds.length) '0' ++ ds

def Spec.signed (s : Spec) (n : Int64) : List Char :=
  s.fill (s.sign (n < 0)) (s.digits 10 n.toInt.natAbs false) (s.zero && s.precision.isNone)

def Spec.unsigned (s : Spec) (base : Nat) (upper : Bool) (n : Int64) : List Char :=
  let v := n.toUInt64.toNat
  let ds := s.digits base v upper
  let lead := if !s.alternate then [] else match base with
    | 16 => if v = 0 then [] else ['0', if upper then 'X' else 'x']
    | _ => []
  let ds := if s.alternate && base = 8 && ds.head? != some '0' then '0' :: ds else ds
  s.fill lead ds (s.zero && s.precision.isNone)

/-- A float in the style of a letter. -/
def Spec.float (s : Spec) (style : Char) (f : Float) : List Char :=
  let upper := style.isUpper
  let fix (l : List Char) := if upper then l.map Char.toUpper else l
  match Decimal.decode f with
  | .nan => fix (s.fill ['-'] "nan".toList false)
  | .infinite negative => fix (s.fill (s.sign negative) "inf".toList false)
  | .finite negative m e =>
    match style.toLower with
    | 'e' => fix (s.fill (s.sign negative) (Decimal.scientific m e (s.precision.getD 6) s.alternate) s.zero)
    | 'f' => fix (s.fill (s.sign negative) (Decimal.positional m e (s.precision.getD 6) s.alternate) s.zero)
    | 'a' =>
      let body := Decimal.hexadecimal m e s.precision s.alternate
      fix (s.fill (s.sign negative ++ body.take 2) (body.drop 2) s.zero)
    | _ => fix (s.fill (s.sign negative) (Decimal.general m e (s.precision.getD 6) s.alternate) s.zero)

def chars (l : List Char) : Bytes := Bytes.ofText (String.ofList l)

/-- A text cut to the precision and filled to the width. -/
def Spec.text (s : Spec) (b : Bytes) : Bytes :=
  let b := match s.precision with
    | some p => b.extract 0 p
    | none => b
  let blanks : Bytes := Bytes.ofList (List.replicate (s.width - b.size) 0x20)
  if s.left then b ++ blanks else blanks ++ b

/-- A string as a literal that reads back. -/
def quoted (b : Bytes) : Bytes :=
  let rec go : List UInt8 → Bytes → Bytes
    | [], out => out
    | c :: r, out =>
      if c = 0x22 ∨ c = 0x5C ∨ c = 0x0A then go r ((out.push 0x5C).push c)
      else if Bytes.isControl c then
        let ds := Nat.toDigits 10 c.toNat
        let next := match r with | d :: _ => Bytes.isDigit d | [] => false
        let ds := if next then List.replicate (3 - ds.length) '0' ++ ds else ds
        go r (out.push 0x5C ++ chars ds)
      else go r (out.push c)
  (go b.toList (Bytes.ofText "\"")).push 0x22

/-- A value as a literal that reads back. -/
def literal? : Value → Option Bytes
  | .str s => some (quoted s)
  | .int n =>
    some (if n = Int64.minValue then Bytes.ofText "0x8000000000000000" else Number.toBytes (.int n))
  | .float f =>
    some (match Decimal.decode f with
      | .nan => Bytes.ofText "(0/0)"
      | .infinite negative => Bytes.ofText (if negative then "-1e9999" else "1e9999")
      | .finite negative m e =>
        chars ((if negative then ['-'] else []) ++ Decimal.hexadecimal m e none false))
  | .nil => some (Bytes.ofText "nil")
  | .bool b => some (Bytes.ofText (if b then "true" else "false"))
  | _ => none

open HostM

/-- The address of a value that has one. -/
def pointer? (v : Value) : Option String :=
  match v with
  | .nil | .bool _ | .int _ | .float _ => none
  | .str s => some ("0x" ++ String.ofList (Nat.toDigits 16 (0x550000000000 + s.hash.toNat % 0x10000000)))
  | _ => some (Heap.address v)

/-- What a directive writes for an argument. -/
def directive (args : Args) (n : Nat) (letter : Char) (spec : List UInt8) : HostM Bytes := do
  let full := Bytes.cat [Bytes.ofText "%", Bytes.ofList spec,
    Bytes.ofText (if letter = '\x00' then "" else letter.toString)]
  let check (flags : String) (precision : Bool) : HostM Spec :=
    match Spec.read? spec flags precision with
    | some s => pure s
    | none => errorBytes [Bytes.ofText "invalid conversion specification: '", full, Bytes.ofText "'"]
  match letter with
  | 'c' =>
    let s ← check "-" false
    let i ← checkInt args n
    pure (s.text (Bytes.ofList [i.toUInt64.toUInt8]))
  | 'd' | 'i' =>
    let i ← checkInt args n
    let s ← check "-+ 0" true
    pure (chars (s.signed i))
  | 'u' =>
    let i ← checkInt args n
    let s ← check "-0" true
    pure (chars (s.unsigned 10 false i))
  | 'o' | 'x' | 'X' =>
    let i ← checkInt args n
    let s ← check "-#0" true
    pure (chars (s.unsigned (if letter = 'o' then 8 else 16) (letter = 'X') i))
  | 'a' | 'A' =>
    let s ← check "-+ #0" true
    let f ← checkFloat args n
    pure (chars (s.float letter f))
  | 'e' | 'E' | 'f' | 'g' | 'G' =>
    let f ← checkFloat args n
    let s ← check "-+ #0" true
    pure (chars (s.float letter f))
  | 'p' =>
    let s ← check "-" false
    pure (s.text (Bytes.ofText ((pointer? (arg args n)).getD "(null)")))
  | 'q' =>
    if !spec.isEmpty then error "specifier '%q' cannot have modifiers"
    else match literal? (arg args n) with
      | some b => pure b
      | none => badArg n "value has no literal form"
  | 's' =>
    let b ← toText (arg args n)
    if spec.isEmpty then pure b
    else
      if b.toList.contains 0 then badArg n "string contains zeros"
      else
        let s ← check "-" true
        if s.precision.isNone && b.size ≥ 100 then pure b else pure (s.text b)
  | _ => errorBytes [Bytes.ofText "invalid conversion '", full, Bytes.ofText "' to 'format'"]

/-- Writes a format; `n` is the number of the argument used last. -/
def write (args : Args) : Nat → List UInt8 → Nat → Bytes → HostM Bytes
  | 0, _, _, out => pure out
  | _, [], _, out => pure out
  | fuel + 1, c :: r, n, out =>
    if c != 0x25 then write args fuel r n (out.push c)
    else match r with
      | 0x25 :: r => write args fuel r n (out.push 0x25)
      | _ =>
        let n := n + 1
        if isNone args n then badArg n "no value"
        else do
          let spec := r.takeWhile isSpecByte
          if spec.length + 1 ≥ 22 then error "invalid format string to 'format'"
          else
            let rest := r.drop spec.length
            let letter := Char.ofNat (rest.head?.getD 0).toNat
            let b ← directive args n letter spec
            write args fuel (rest.drop 1) n (out ++ b)

/-- The text of a format and its arguments, which follow it. -/
def run (args : Args) : HostM Bytes := do
  let fmt := (← checkString args 1).toList
  write args (fmt.length + 1) fmt 1 .empty

end ScriptHost.Script.Format
