import ScriptHost.Script.Host

/-!
# Binary layouts

A layout lists the fields of a binary string: integers of a size, floats,
strings of fixed size, with a length before them or a zero behind them, and
padding. Byte order and alignment can be set on the way.
-/
namespace ScriptHost.Script.Pack

open HostM

/-- A field of a layout. -/
inductive Field where
  | signed (size : Nat)
  | unsigned (size : Nat)
  | float
  | double
  | fixed (size : Nat)
  | counted (size : Nat)
  | zeroEnded
  | padding
  /-- Alignment without a value. -/
  | align
  | nothing
  deriving Inhabited

/-- The reading of a layout: what is left, byte order, largest alignment. -/
structure Layout where
  text : List UInt8
  little : Bool := true
  maxAlign : Nat := 1
  deriving Inhabited

/-- The greatest size of a packed text, 31 bits. -/
def maxSize : Nat := 0x7FFFFFFF

/-- Reads digits as long as the number has room for one more. -/
def takeNumber (n : Nat) : List UInt8 → Nat × List UInt8
  | [] => (n, [])
  | c :: r =>
    if Bytes.isDigit c && n ≤ (maxSize - 9) / 10 then takeNumber (n * 10 + (c - 0x30).toNat) r
    else (n, c :: r)

/-- A number in the layout; `dflt` when there is none. -/
def number (l : Layout) (dflt : Nat) : Nat × Layout :=
  if !(l.text.head?.map Bytes.isDigit).getD false then (dflt, l)
  else
    let (n, text) := takeNumber 0 l.text
    (n, { l with text })

/-- A size from 1 to 16. -/
def sizeLimit (l : Layout) (dflt : Nat) : HostM (Nat × Layout) := do
  let (n, l) := number l dflt
  if n > 16 ∨ n = 0 then error s!"integral size ({n}) out of limits [1,16]" else pure (n, l)

/-- The next option of a layout. -/
def option (l : Layout) : HostM (Field × Layout) := do
  match l.text with
  | [] => pure (.nothing, l)
  | c :: r =>
    let l := { l with text := r }
    match Char.ofNat c.toNat with
    | 'b' => pure (.signed 1, l)
    | 'B' => pure (.unsigned 1, l)
    | 'h' => pure (.signed 2, l)
    | 'H' => pure (.unsigned 2, l)
    | 'l' | 'j' => pure (.signed 8, l)
    | 'L' | 'J' | 'T' => pure (.unsigned 8, l)
    | 'f' => pure (.float, l)
    | 'd' | 'n' => pure (.double, l)
    | 'i' => do
      let (n, l) ← sizeLimit l 4
      pure (.signed n, l)
    | 'I' => do
      let (n, l) ← sizeLimit l 4
      pure (.unsigned n, l)
    | 's' => do
      let (n, l) ← sizeLimit l 8
      pure (.counted n, l)
    | 'c' =>
      let ds := l.text.takeWhile Bytes.isDigit
      if ds.isEmpty then error "missing size for format option 'c'"
      else
        let (n, l) := number l 0
        pure (.fixed n, l)
    | 'z' => pure (.zeroEnded, l)
    | 'x' => pure (.padding, l)
    | 'X' => pure (.align, l)
    | ' ' => pure (.nothing, l)
    | '<' | '=' => pure (.nothing, { l with little := true })
    | '>' => pure (.nothing, { l with little := false })
    | '!' => do
      let (n, l) ← sizeLimit l 8
      pure (.nothing, { l with maxAlign := n })
    | ch => errorBytes [Bytes.ofText "invalid format option '", Bytes.ofText ch.toString, Bytes.ofText "'"]

def Field.size : Field → Nat
  | .signed n | .unsigned n | .fixed n | .counted n => n
  | .float => 4
  | .double => 8
  | .padding => 1
  | _ => 0

/-- The alignment a field asks for. -/
def Field.alignment : Field → Nat
  | .signed n | .unsigned n | .counted n => n
  | .float => 4
  | .double => 8
  | _ => 0

/-- The next field, the padding before it at offset `total`, and the rest of the layout. -/
def next (l : Layout) (total : Nat) : HostM (Field × Nat × Layout) := do
  let (f, l) ← option l
  let (align, l) ← match f with
    | .align => do
      if l.text.isEmpty then badArg 1 "invalid next option for option 'X'"
      else
        let (g, l) ← option l
        match g with
        | .fixed _ => badArg 1 "invalid next option for option 'X'"
        | _ =>
          if g.size = 0 then badArg 1 "invalid next option for option 'X'"
          else pure (g.size, l)
    | _ => pure (f.alignment, l)
  if align ≤ 1 then pure (f, 0, l)
  else
    let align := min align l.maxAlign
    if align &&& (align - 1) != 0 then badArg 1 "format asks for alignment not power of 2"
    else pure (f, (align - (total &&& (align - 1))) &&& (align - 1), l)

/-- The bytes of a number modulo `256 ^ size`. -/
def intBytes (little : Bool) (size : Nat) (n : Int) : Bytes :=
  let v := (n % (Nat.pow 256 size : Nat)).toNat
  let low := (List.range size).map fun i => UInt8.ofNat (v / Nat.pow 256 i % 256)
  Bytes.ofList (if little then low else low.reverse)

def zeros (n : Nat) : Bytes := Bytes.ofList (List.replicate n 0)

/-- Writes the arguments from `n` on. -/
def pack (args : Args) : Nat → Layout → Nat → Bytes → HostM Bytes
  | 0, _, _, out => pure out
  | fuel + 1, l, n, out => do
    if l.text.isEmpty then pure out
    else
      let (f, pad, l) ← next l out.size
      let out := out ++ zeros pad
      match f with
      | .signed size => do
        let i ← checkInt args n
        if size < 8 then
          let lim : Int := Nat.pow 2 (size * 8 - 1)
          if !(-lim ≤ i.toInt ∧ i.toInt < lim) then badArg n "integer overflow"
        pack args fuel l (n + 1) (out ++ intBytes l.little size i.toInt)
      | .unsigned size => do
        let i ← checkInt args n
        let v : Int := i.toUInt64.toNat
        if size < 8 ∧ v ≥ (Nat.pow 256 size : Nat) then badArg n "unsigned overflow"
        -- beyond eight bytes the sign is carried on
        pack args fuel l (n + 1) (out ++ intBytes l.little size (if size > 8 then i.toInt else v))
      | .float => do
        let f ← checkFloat args n
        pack args fuel l (n + 1) (out ++ intBytes l.little 4 f.toFloat32.toBits.toNat)
      | .double => do
        let f ← checkFloat args n
        pack args fuel l (n + 1) (out ++ intBytes l.little 8 f.toBits.toNat)
      | .fixed size => do
        let s ← checkString args n
        if s.size > size then badArg n "string longer than given size"
        pack args fuel l (n + 1) (out ++ s ++ zeros (size - s.size))
      | .counted size => do
        let s ← checkString args n
        if size < 8 ∧ s.size ≥ Nat.pow 256 size then badArg n "string length does not fit in given size"
        pack args fuel l (n + 1) (out ++ intBytes l.little size s.size ++ s)
      | .zeroEnded => do
        let s ← checkString args n
        if s.toList.contains 0 then badArg n "string contains zeros"
        pack args fuel l (n + 1) ((out ++ s).push 0)
      | .padding => pack args fuel l n (out.push 0)
      | .align | .nothing => pack args fuel l n out

/-- The size of a layout of fixed size. -/
def size : Nat → Layout → Nat → HostM Nat
  | 0, _, total => pure total
  | fuel + 1, l, total => do
    if l.text.isEmpty then pure total
    else
      let (f, pad, l) ← next l total
      match f with
      | .counted _ | .zeroEnded => badArg 1 "variable-length format"
      | _ =>
        let total := total + pad + f.size
        if total > maxSize then badArg 1 "format result too large" else size fuel l total

/-- The number in bytes `i` to `i + size`, without its sign. -/
def readNat (data : Bytes) (little : Bool) (i size : Nat) : Nat :=
  let bytes := (data.extract i (i + size)).toList
  (if little then bytes.reverse else bytes).foldl (fun n b => n * 256 + b.toNat) 0

/-- The integer of a field; one of more than eight bytes must fit. -/
def readInt (data : Bytes) (little : Bool) (i size : Nat) (signed : Bool) : HostM Int64 := do
  let v := readNat data little i size
  let low : Nat := v % UInt64.size
  let value : Int :=
    if size < 8 && signed && decide (v ≥ Nat.pow 2 (size * 8 - 1)) then (v : Int) - (Nat.pow 2 (size * 8) : Nat)
    else (low : Int)
  if size > 8 then
    let high := v / UInt64.size
    let negative := signed && decide (low ≥ Nat.pow 2 63)
    if high != (if negative then Nat.pow 2 ((size - 8) * 8) - 1 else 0) then
      error s!"{size}-byte integer does not fit into a Lua integer"
  pure (Int64.ofInt value)

/-- Reads the fields from offset `pos` on; the values read so far are in `out`. -/
def unpack (data : Bytes) : Nat → Layout → Nat → Array Value → HostM (Array Value)
  | 0, _, pos, out => pure (out.push (.ofNat (pos + 1)))
  | fuel + 1, l, pos, out => do
    if l.text.isEmpty then pure (out.push (.ofNat (pos + 1)))
    else
      let (f, pad, l) ← next l pos
      let need := pad + f.size
      if pos > data.size ∨ need > data.size - pos then badArg 2 "data string too short"
      let pos := pos + pad
      match f with
      | .signed size => do
        let n ← readInt data l.little pos size true
        unpack data fuel l (pos + size) (out.push (.int n))
      | .unsigned size => do
        let n ← readInt data l.little pos size false
        unpack data fuel l (pos + size) (out.push (.int n))
      | .float =>
        let f := (Float32.ofBits (UInt32.ofNat (readNat data l.little pos 4))).toFloat
        unpack data fuel l (pos + 4) (out.push (.float f))
      | .double =>
        let f := Float.ofBits (UInt64.ofNat (readNat data l.little pos 8))
        unpack data fuel l (pos + 8) (out.push (.float f))
      | .fixed size =>
        unpack data fuel l (pos + size) (out.push (.str (data.extract pos (pos + size))))
      | .counted size => do
        let n := readNat data l.little pos size
        if n > data.size - pos - size then badArg 2 "data string too short"
        let start := pos + size
        unpack data fuel l (start + n) (out.push (.str (data.extract start (start + n))))
      | .zeroEnded => do
        let s := Bytes.ofList ((data.extract pos data.size).toList.takeWhile (· != 0))
        if pos + s.size ≥ data.size then badArg 2 "unfinished string for format 'z'"
        unpack data fuel l (pos + s.size + 1) (out.push (.str s))
      | .padding => unpack data fuel l (pos + 1) out
      | .align | .nothing => unpack data fuel l pos out

end ScriptHost.Script.Pack
