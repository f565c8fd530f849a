import ScriptHost.Script.Number

/-!
# Tokens

The words of a script, with the text an error message shows for them.
-/
namespace ScriptHost.Script

/-- A token. Reserved words and operators of several characters are `word`s, and a single
character that is none of the others stands for itself. -/
inductive Token where
  | eof
  | name (s : Bytes)
  | str (s : Bytes)
  | int (n : Int64)
  | float (f : Float)
  | word (s : String)
  | char (c : UInt8)
  deriving Inhabited

namespace Token

def reserved : List String :=
  ["and", "break", "do", "else", "elseif", "end", "false", "for", "function", "goto", "if", "in",
   "local", "nil", "not", "or", "repeat", "return", "then", "true", "until", "while"]

/-- The token is the given word. -/
def isWord (t : Token) (w : String) : Bool :=
  match t with
  | .word s => s == w
  | _ => false

/-- The token is the given character. -/
def isChar (t : Token) (c : Char) : Bool :=
  match t with
  | .char b => b.toNat == c.toNat
  | _ => false

/-- A text between single quotes. -/
def quoted (b : Bytes) : Bytes := Bytes.ofText "'" ++ b ++ Bytes.ofText "'"

/-- The token in a message that asks for it. -/
def describe : Token → Bytes
  | .eof => Bytes.ofText "<eof>"
  | .name _ => Bytes.ofText "<name>"
  | .str _ => Bytes.ofText "<string>"
  | .int _ => Bytes.ofText "<integer>"
  | .float _ => Bytes.ofText "<number>"
  | .word s => quoted (Bytes.ofText s)
  | .char c =>
    if Bytes.isPrint c then quoted (Bytes.ofList [c])
    else Bytes.ofText ("'<\\" ++ toString c.toNat ++ ">'")

/-- The token in a message that points at it; `buffer` is its text, shown up to a zero byte. -/
def describeNear (buffer : Bytes) : Token → Bytes
  | .name _ | .str _ | .int _ | .float _ =>
    quoted (Bytes.ofList (buffer.toList.takeWhile (· != 0)))
  | t => t.describe

end Token
end ScriptHost.Script
