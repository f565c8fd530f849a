/-!
# UTF-8 text out of arbitrary bytes

`Utf8.head` reads the first unit of a byte string: a whole character, a
*maximal invalid subpart* (the longest prefix of some well-formed sequence
that the next byte refuses, or one byte that starts none), or a tail that is
a proper prefix of a well-formed sequence. `Utf8.scan` repeats it and writes
one U+FFFD for every invalid subpart; what it leaves over is empty or such a
tail. `Utf8.lossy` is the decoding of a complete byte string, in which the
tail counts as one invalid subpart.
-/
namespace ScriptHost.Utf8

/-- What stands for one invalid subpart. -/
def replacement : Char := '\ufffd'

/-- A continuation byte. -/
def isContinuation (b : UInt8) : Bool := 0x80 ≤ b && b ≤ 0xBF

/-- The bytes that may follow a given lead byte; the bounds exclude overlong
forms, surrogates and code points above U+10FFFF. -/
def isSecond (lead b : UInt8) : Bool :=
  if lead = 0xE0 then 0xA0 ≤ b && b ≤ 0xBF
  else if lead = 0xED then 0x80 ≤ b && b ≤ 0x9F
  else if lead = 0xF0 then 0x90 ≤ b && b ≤ 0xBF
  else if lead = 0xF4 then 0x80 ≤ b && b ≤ 0x8F
  else isContinuation b

/-- Number of bytes in a sequence that starts with `lead`; 0 when none does. -/
def width (lead : UInt8) : Nat :=
  if lead ≤ 0x7F then 1
  else if 0xC2 ≤ lead && lead ≤ 0xDF then 2
  else if 0xE0 ≤ lead && lead ≤ 0xEF then 3
  else if 0xF0 ≤ lead && lead ≤ 0xF4 then 4
  else 0

/-- The payload bits of a continuation byte. -/
def payload (b : UInt8) : Nat := (b &&& 0x3F).toNat

/-- How a byte string begins. -/
inductive Head where
  /-- The string is empty. -/
  | done
  /-- A character, and the number of bytes it took. -/
  | char (c : Char) (size : Nat)
  /-- A maximal invalid subpart of `size` bytes. -/
  | invalid (size : Nat)
  /-- All that is left is a proper prefix of a well-formed sequence. -/
  | incomplete
  deriving DecidableEq, Repr

/-- The first unit of a byte string. -/
def head : List UInt8 → Head
  | [] => .done
  | a :: r =>
    match width a with
    | 1 => .char (Char.ofNat a.toNat) 1
    | 2 =>
      match r with
      | [] => .incomplete
      | b :: _ =>
        if isSecond a b then .char (Char.ofNat ((a &&& 0x1F).toNat * 64 + payload b)) 2
        else .invalid 1
    | 3 =>
      match r with
      | [] => .incomplete
      | b :: r =>
        if !isSecond a b then .invalid 1
        else match r with
          | [] => .incomplete
          | c :: _ =>
            if isContinuation c then
              .char (Char.ofNat (((a &&& 0x0F).toNat * 64 + payload b) * 64 + payload c)) 3
            else .invalid 2
    | 4 =>
      match r with
      | [] => .incomplete
      | b :: r =>
        if !isSecond a b then .invalid 1
        else match r with
          | [] => .incomplete
          | c :: r =>
            if !isContinuation c then .invalid 2
            else match r with
              | [] => .incomplete
              | d :: _ =>
                if isContinuation d then
                  .char (Char.ofNat
                    ((((a &&& 0x07).toNat * 64 + payload b) * 64 + payload c) * 64 + payload d)) 4
                else .invalid 3
    | _ => .invalid 1

/-- Characters of `bytes` behind those of `text`, and the incomplete tail.
Every unit takes at least one byte, so `fuel = bytes.length` reads all. -/
def scanFrom : Nat → String → List UInt8 → String × List UInt8
  | 0, text, bytes => (text, bytes)
  | fuel + 1, text, bytes =>
    match head bytes with
    | .done => (text, [])
    | .char c size => scanFrom fuel (text.push c) (bytes.drop size)
    | .invalid size => scanFrom fuel (text.push replacement) (bytes.drop size)
    | .incomplete => (text, bytes)

/-- The text of all complete units, and the incomplete tail. -/
def scan (bytes : List UInt8) : String × List UInt8 := scanFrom bytes.length "" bytes

/-- The text of a complete byte string: one U+FFFD per maximal invalid subpart. -/
def lossy (bytes : List UInt8) : String :=
  let (text, tail) := scan bytes
  if tail.isEmpty then text else text.push replacement

end ScriptHost.Utf8
