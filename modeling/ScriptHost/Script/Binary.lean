import ScriptHost.Script.Heap

/-!
# Functions in binary form

A binary form opens with a fixed header that says which machine it is for. What
follows it here is the number under which the heap keeps the code.
-/
namespace ScriptHost.Script.Binary

/-- The first four bytes. -/
def signature : Bytes := Bytes.ofText "\x1bLua"

/-- Bytes that a transfer as text would change. -/
def transferCheck : Bytes := Bytes.ofList [0x19, 0x93, 0x0D, 0x0A, 0x1A, 0x0A]

/-- An integer of eight bytes, lowest first. -/
def word (n : Nat) : Bytes := Bytes.ofList ((List.range 8).map fun i => UInt8.ofNat (n / Nat.pow 256 i % 256))

/-- The parts of the header, and what is wrong when one of them differs: the signature, the version
and the format, the transfer check, the sizes of an instruction, an integer and a float, and an
integer and a float (370.5) as samples. -/
def header : List (Bytes × String) :=
  [(signature, "not a binary chunk"), (Bytes.ofList [0x54], "version mismatch"),
    (Bytes.ofList [0], "format mismatch"), (transferCheck, "corrupted chunk"),
    (Bytes.ofList [4], "Instruction size mismatch"), (Bytes.ofList [8], "lua_Integer size mismatch"),
    (Bytes.ofList [8], "lua_Number size mismatch"), (word 0x5678, "integer format mismatch"),
    (word 0x4077280000000000, "float format mismatch")]

/-- Checks parts from an index on: the index behind them, or what is wrong. -/
def check (b : Bytes) : List (Bytes × String) → Nat → Except String Nat
  | [], i => .ok i
  | (part, trouble) :: rest, i =>
    if b.size < i + part.size then .error "truncated chunk"
    else if b.isAt part i then check b rest (i + part.size)
    else .error trouble

/-- The binary form of the code with a number. -/
def encode (index : Nat) : Bytes :=
  Bytes.cat (header.map (·.1) ++ [Bytes.ofList [1], word index, Bytes.ofList (List.replicate 40 0)])

/-- The number of the code in a binary form, or what is wrong with it. -/
def decode (b : Bytes) : Except String Nat := do
  let i ← check b header 0
  if b.size < (encode 0).size then .error "truncated chunk"
  else
    let digits := (b.extract (i + 1) (i + 9)).toList.reverse
    .ok (digits.foldl (fun n d => n * 256 + d.toNat) 0)

end ScriptHost.Script.Binary
