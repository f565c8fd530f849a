import ScriptHost.Text.Json

/-!
# Reading JSON

A reader for JSON texts, strict as the format is: blanks stand between the parts
of a text only, a number has no leading zero, a string holds no character below
U+0020 as it is, and an escape of a surrogate counts only in a pair. Each reader
takes the beginning of a text and gives what it has read and the rest.
-/
namespace ScriptHost.Json

/-- A JSON value. A number is kept as it is written. -/
inductive Value where
  | null
  | bool (b : Bool)
  | number (digits : List Char)
  | string (s : String)
  | array (items : List Value)
  | object (members : List (String × Value))
  deriving Inhabited

/-! ## Blanks and literals -/

def isBlank (c : Char) : Bool := c = ' ' || c = '\t' || c = '\n' || c = '\r'

def skipBlanks (l : List Char) : List Char := l.dropWhile isBlank

/-- A word that stands for a value. -/
def literal (word : String) (v : Value) (l : List Char) : Option (Value × List Char) :=
  if word.toList.isPrefixOf l then some (v, l.drop word.length) else none

/-! ## Numbers -/

/-- Digits, at least one. -/
def digits (l : List Char) : Option (List Char × List Char) :=
  if (l.takeWhile Char.isDigit).isEmpty then none
  else some (l.takeWhile Char.isDigit, l.dropWhile Char.isDigit)

/-- A whole number: a zero, or digits of which the first is none. -/
def whole (l : List Char) : Option (List Char × List Char) :=
  match l with
  | '0' :: r => some (['0'], r)
  | l => digits l

def sign (l : List Char) : List Char × List Char :=
  match l with
  | '-' :: r => (['-'], r)
  | l => ([], l)

/-- The part behind the point, if there is one. -/
def fraction (l : List Char) : Option (List Char × List Char) :=
  match l with
  | '.' :: r => (digits r).map fun (ds, r) => ('.' :: ds, r)
  | l => some ([], l)

/-- The exponent, if there is one. -/
def exponent (l : List Char) : Option (List Char × List Char) :=
  match l with
  | e :: r =>
    if e = 'e' || e = 'E' then
      let (s, r) := match r with
        | '+' :: r => (['+'], r)
        | r => sign r
      (digits r).map fun (ds, r) => (e :: s ++ ds, r)
    else some ([], l)
  | [] => some ([], [])

def number (l : List Char) : Option (Value × List Char) := do
  let (s, l) := sign l
  let (w, l) ← whole l
  let (f, l) ← fraction l
  let (e, l) ← exponent l
  some (.number (s ++ w ++ f ++ e), l)

/-! ## Strings -/

/-- The value of a hexadecimal digit. -/
def hexValue? (c : Char) : Option Nat :=
  if '0' ≤ c ∧ c ≤ '9' then some (c.toNat - 48)
  else if 'a' ≤ c ∧ c ≤ 'f' then some (c.toNat - 87)
  else if 'A' ≤ c ∧ c ≤ 'F' then some (c.toNat - 55)
  else none

/-- The value of four hexadecimal digits. -/
def hexValue4? (a b c d : Char) : Option Nat := do
  some (((← hexValue? a) * 16 + (← hexValue? b)) * 256 + (← hexValue? c) * 16 + (← hexValue? d))

/-- The character of an escape of two letters. -/
def shortEscape? (c : Char) : Option Char :=
  match c with
  | '"' => some '"'
  | '\\' => some '\\'
  | '/' => some '/'
  | 'b' => some '\x08'
  | 'f' => some '\x0c'
  | 'n' => some '\n'
  | 'r' => some '\r'
  | 't' => some '\t'
  | _ => none

/-- What a string is made of: characters, and the numbers of long escapes. -/
inductive Piece where
  | char (c : Char)
  | code (n : Nat)
  deriving DecidableEq, Repr

/-- The pieces up to the closing quote. -/
def pieces : List Char → Option (List Piece × List Char)
  | [] => none
  | '"' :: r => some ([], r)
  | '\\' :: r =>
    match r with
    | 'u' :: a :: b :: c :: d :: r => do
      let n ← hexValue4? a b c d
      let (ps, r) ← pieces r
      some (.code n :: ps, r)
    | e :: r => do
      let c ← shortEscape? e
      let (ps, r) ← pieces r
      some (.char c :: ps, r)
    | [] => none
  | c :: r => do
    if c.toNat < 0x20 then none
    let (ps, r) ← pieces r
    some (.char c :: ps, r)

/-- The first of the high and of the low surrogates, and the number behind them. -/
def highSurrogate : Nat := 0xD800
def lowSurrogate : Nat := 0xDC00
def pastSurrogates : Nat := 0xE000

/-- The text of pieces; two surrogates make one character. -/
def assemble : List Piece → Option (List Char)
  | [] => some []
  | .char c :: ps => (assemble ps).map (c :: ·)
  | .code n :: ps =>
    if n < highSurrogate ∨ pastSurrogates ≤ n then (assemble ps).map (Char.ofNat n :: ·)
    else
      match ps with
      | .code m :: ps =>
        if n < lowSurrogate ∧ lowSurrogate ≤ m ∧ m < pastSurrogates then
          (assemble ps).map
            (Char.ofNat (0x10000 + (n - highSurrogate) * 0x400 + (m - lowSurrogate)) :: ·)
        else none
      | _ => none

/-- A string from behind its opening quote on. -/
def stringBody (l : List Char) : Option (String × List Char) := do
  let (ps, r) ← pieces l
  let cs ← assemble ps
  some (String.ofList cs, r)

/-! ## Arrays and objects -/

variable {α : Type}

/-- Items with `,` between them, at least one, up to the character that closes them; each takes at
least one character, so a text has fuel for all of them. -/
def separated (close : Char) (item : List Char → Option (α × List Char)) :
    Nat → List Char → Option (List α × List Char)
  | 0, _ => none
  | fuel + 1, l => do
    let (a, l) ← item (skipBlanks l)
    match skipBlanks l with
    | [] => none
    | c :: l =>
      if c = close then some ([a], l)
      else if c = ',' then do
        let (as, l) ← separated close item fuel l
        some (a :: as, l)
      else none

/-- Items up to the character that closes them. -/
def items (close : Char) (item : List Char → Option (α × List Char)) (l : List Char) :
    Option (List α × List Char) :=
  match skipBlanks l with
  | [] => none
  | c :: r => if c = close then some ([], r) else separated close item l.length l

/-- A name and what stands behind its `:`. -/
def member (value : List Char → Option (α × List Char)) (l : List Char) :
    Option ((String × α) × List Char) :=
  match l with
  | '"' :: l => do
    let (name, l) ← stringBody l
    match skipBlanks l with
    | ':' :: l => do
      let (v, l) ← value (skipBlanks l)
      some ((name, v), l)
    | _ => none
  | _ => none

/-- A value that is nested less deep than `depth`. -/
def value : Nat → List Char → Option (Value × List Char)
  | 0, _ => none
  | depth + 1, l =>
    match l with
    | '"' :: r => (stringBody r).map fun (s, r) => (.string s, r)
    | '[' :: r => (items ']' (value depth) r).map fun (vs, r) => (.array vs, r)
    | '\x7b' :: r => (items '\x7d' (member (value depth)) r).map fun (ms, r) => (.object ms, r)
    | 'n' :: _ => literal "null" .null l
    | 't' :: _ => literal "true" (.bool true) l
    | 'f' :: _ => literal "false" (.bool false) l
    | l => number l

/-- The value of a whole text. Every level of nesting takes a character, so the length of the text
is deeper than it can be nested. -/
def read? (text : List Char) : Option Value :=
  match value (text.length + 1) (skipBlanks text) with
  | some (v, rest) => if (skipBlanks rest).isEmpty then some v else none
  | none => none

example :
    (read? "\x7b \"a\" : [1, -0.5e3], \"\\u00e9\\ud83d\\ude00\" : null \x7d".toList).isSome = true := by
  decide +kernel

end ScriptHost.Json
