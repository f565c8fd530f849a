import ScriptHost.Script.Token

/-!
# From source text to tokens

A scanner stands at a byte of the source and counts lines. Any of `\n`, `\r`,
`\r\n` and `\n\r` ends a line. The text of the token being read is kept for
error messages.
-/
namespace ScriptHost.Script

/-- How a chunk's name is shown in messages: `=` is taken off and the rest cut to 59 bytes, `@`
keeps the end of a long name, and a source text is shown by its first line. -/
def displayName (name : Bytes) : Bytes :=
  let limit := 59
  let rest := name.extract 1 name.size
  if name.size = 0 then Bytes.ofText "[string \"\"]"
  else if Bytes.at0 name 0 = 0x3D then rest.extract 0 limit
  else if Bytes.at0 name 0 = 0x40 then
    if rest.size ≤ limit then rest
    else Bytes.ofText "..." ++ rest.extract (rest.size - (limit - 3)) rest.size
  else
    let line := Bytes.ofList (name.toList.takeWhile (· != 0x0A))
    let room := limit + 1 - 15
    let body := if line.size < name.size ∨ name.size ≥ room then
        line.extract 0 (min line.size room) ++ Bytes.ofText "..."
      else name
    Bytes.ofText "[string \"" ++ body ++ Bytes.ofText "\"]"

/-- A place in the source. -/
structure Scanner where
  source : Bytes
  pos : Nat := 0
  line : Nat := 1
  /-- The text of the current token. -/
  buffer : Bytes := .empty
  /-- The chunk's name as messages show it. -/
  chunk : Bytes := .empty
  deriving Inhabited

namespace Scanner

/-- A text with the place it is about before it. -/
def located (chunk : Bytes) (line : Nat) (msg : Bytes) : Bytes :=
  chunk ++ Bytes.ofText (":" ++ toString line ++ ": ") ++ msg

/-- The message of an error; `near` is what it points at. -/
def message (s : Scanner) (msg : Bytes) (near : Option Token) : Bytes :=
  let text := located s.chunk s.line msg
  match near with
  | some (.char 0) | none => text
  | some t => text ++ Bytes.ofText " near " ++ t.describeNear s.buffer

/-- A step of the scanner: it fails with a message. -/
abbrev Scan := StateT Scanner (Except Bytes)

def fail {α : Type} (msg : String) (near : Token) : Scan α := fun s =>
  .error (s.message (Bytes.ofText msg) (some near))

/-- The byte at the scanner; none at the end. -/
def current : Scan (Option UInt8) := fun s => .ok (s.source[s.pos]?, s)

def advance : Scan Unit := modify fun s => { s with pos := s.pos + 1 }

def save (c : UInt8) : Scan Unit := modify fun s => { s with buffer := s.buffer.push c }

/-- Keeps the current byte and goes on. -/
def saveNext : Scan Unit := modify fun s =>
  match s.source[s.pos]? with
  | some c => { s with buffer := s.buffer.push c, pos := s.pos + 1 }
  | none => s

/-- Drops the last `n` bytes kept. -/
def unsave (n : Nat) : Scan Unit := modify fun s =>
  { s with buffer := s.buffer.extract 0 (s.buffer.size - n) }

def resetBuffer : Scan Unit := modify fun s => { s with buffer := .empty }

def isNewline (c : Option UInt8) : Bool := c = some 0x0A || c = some 0x0D

/-- Goes over one end of line. -/
def newline : Scan Unit := modify fun s =>
  let a := s.source[s.pos]?
  let b := s.source[s.pos + 1]?
  let n := if isNewline b && b != a then 2 else 1
  { s with pos := s.pos + n, line := s.line + 1 }

/-- Repeats a step until it says that it is done. -/
def repeatUntil {α : Type} (step : Scan (Option α)) (dflt : α) : Nat → Scan α
  | 0 => pure dflt
  | fuel + 1 => do
    match ← step with
    | some a => pure a
    | none => repeatUntil step dflt fuel

/-- Every repetition takes a byte, or ends. -/
def fuel : Scan Nat := fun s => .ok (s.source.size + 2, s)

/-- Takes the current byte when it is `c`. -/
def accept (c : Char) : Scan Bool := do
  if (← current) = some (UInt8.ofNat c.toNat) then advance; pure true else pure false

/-- Keeps bytes of a class. -/
def saveWhile (p : UInt8 → Bool) : Scan Unit := do
  repeatUntil (do
    match ← current with
    | some c => if p c then saveNext; pure none else pure (some ())
    | none => pure (some ())) () (← fuel)

/-- The size of a long bracket `[==[` at the scanner: the number of `=` plus two, 1 for a single
bracket, 0 for a bracket that is not finished. -/
def bracket : Scan Nat := do
  let start ← current
  saveNext
  let before := (← get).buffer.size
  saveWhile (· = 0x3D)
  let count := (← get).buffer.size - before
  if (← current) = start then pure (count + 2) else pure (if count = 0 then 1 else 0)

/-- The text of a long bracket, or of a long comment. -/
def longText (size : Nat) (isString : Bool) : Scan Bytes := do
  let line := (← get).line
  saveNext
  if isNewline (← current) then newline
  repeatUntil (do
    match ← current with
    | none =>
      let what := if isString then "string" else "comment"
      fail ("unfinished long " ++ what ++ " (starting at line " ++ toString line ++ ")") .eof
    | some 0x5D =>
      if (← bracket) = size then
        saveNext
        pure (some ())
      else pure none
    | some 0x0A | some 0x0D => do
      save 0x0A
      newline
      if !isString then resetBuffer
      pure none
    | some _ => do
      if isString then saveNext else advance
      pure none) () (← fuel)
  let b := (← get).buffer
  pure (b.extract size (b.size - size))

/-- A numeral. -/
def numeral : Scan Token := do
  let first ← current
  saveNext
  let hex := first = some 0x30 && ((← current) = some 0x78 || (← current) = some 0x58)
  if hex then saveNext
  let isExponent (c : UInt8) : Bool := Bytes.toLower c = (if hex then 0x70 else 0x65)
  repeatUntil (do
    match ← current with
    | none => pure (some ())
    | some c =>
      if isExponent c then
        saveNext
        match ← current with
        | some 0x2D | some 0x2B => saveNext
        | _ => pure ()
        pure none
      else if Bytes.isHexDigit c || c = 0x2E then
        saveNext
        pure none
      else pure (some ())) () (← fuel)
  match ← current with
  | some c => if Bytes.isAlpha c || c = 0x5F then saveNext
  | none => pure ()
  match Number.read? (← get).buffer with
  | some (.int n) => pure (.int n)
  | some (.float f) => pure (.float f)
  | _ => fail "malformed number" (.float 0)

/-- An escape that is none; the byte that breaks it is shown. -/
def badEscape {α : Type} (msg : String) : Scan α := do
  saveNext
  fail msg (.str .empty)

/-- A hexadecimal digit behind the current byte. -/
def hexEscapeDigit : Scan Nat := do
  saveNext
  match ← current with
  | some c => if Bytes.isHexDigit c then pure (Bytes.hexValue c) else badEscape "hexadecimal digit expected"
  | none => badEscape "hexadecimal digit expected"

/-- Up to six bytes for a code point below 2 ^ 31. -/
def encodeCodePoint (n : Nat) : List UInt8 :=
  let tail (k : Nat) : List UInt8 :=
    (List.range k).reverse.map fun i => UInt8.ofNat (0x80 + n / Nat.pow 64 i % 64)
  if n < 0x80 then [UInt8.ofNat n]
  else if n < 0x800 then UInt8.ofNat (0xC0 + n / 64) :: tail 1
  else if n < 0x10000 then UInt8.ofNat (0xE0 + n / Nat.pow 64 2) :: tail 2
  else if n < 0x200000 then UInt8.ofNat (0xF0 + n / Nat.pow 64 3) :: tail 3
  else if n < 0x4000000 then UInt8.ofNat (0xF8 + n / Nat.pow 64 4) :: tail 4
  else UInt8.ofNat (0xFC + n / Nat.pow 64 5) :: tail 5

/-- The escape `\u{…}`. -/
def unicodeEscape : Scan Unit := do
  let before := (← get).buffer.size
  saveNext
  if (← current) != some 0x7B then badEscape "missing '\x7b'"
  let first ← hexEscapeDigit
  let value ← digits first (← fuel)
  if (← current) != some 0x7D then badEscape "missing '\x7d'"
  advance
  unsave ((← get).buffer.size - before + 1)
  for c in encodeCodePoint value do save c
where
  digits (value : Nat) : Nat → Scan Nat
    | 0 => pure value
    | fuel + 1 => do
      saveNext
      match ← current with
      | some c =>
        if Bytes.isHexDigit c then
          if value > 0x7FFFFFF then badEscape "UTF-8 value too large"
          digits (value * 16 + Bytes.hexValue c) fuel
        else pure value
      | none => pure value

/-- The escape of up to three decimal digits. -/
def decimalEscape : Scan Unit := do
  let value ← digits 0 3
  if value.1 > 255 then badEscape "decimal escape too large"
  unsave (value.2 + 1)
  save (UInt8.ofNat value.1)
where
  digits (value : Nat) : Nat → Scan (Nat × Nat)
    | 0 => pure (value, 3)
    | fuel + 1 => do
      match ← current with
      | some c =>
        if Bytes.isDigit c then
          saveNext
          digits (value * 10 + (c - 48).toNat) fuel
        else pure (value, 3 - (fuel + 1))
      | none => pure (value, 3 - (fuel + 1))

/-- The byte of a one-letter escape. -/
def simpleEscape? (c : UInt8) : Option UInt8 :=
  match Char.ofNat c.toNat with
  | 'a' => some 7
  | 'b' => some 8
  | 'f' => some 12
  | 'n' => some 10
  | 'r' => some 13
  | 't' => some 9
  | 'v' => some 11
  | '\\' | '"' | '\'' => some c
  | _ => none

/-- What follows a backslash. -/
def escape : Scan Unit := do
  saveNext
  match ← current with
  | none => pure ()
  | some c =>
    match simpleEscape? c with
    | some b =>
      advance
      unsave 1
      save b
    | none =>
      if c = 0x78 then
        let a ← hexEscapeDigit
        let b ← hexEscapeDigit
        advance
        unsave 3
        save (UInt8.ofNat (a * 16 + b))
      else if c = 0x75 then unicodeEscape
      else if c = 0x0A || c = 0x0D then
        newline
        unsave 1
        save 0x0A
      else if c = 0x7A then
        unsave 1
        advance
        repeatUntil (do
          match ← current with
          | some c =>
            if c = 0x0A || c = 0x0D then
              newline
              pure none
            else if Bytes.isSpace c then
              advance
              pure none
            else pure (some ())
          | none => pure (some ())) () (← fuel)
      else if Bytes.isDigit c then decimalEscape
      else badEscape "invalid escape sequence"

/-- A string between two `delimiter`s. -/
def quotedText (delimiter : UInt8) : Scan Bytes := do
  saveNext
  repeatUntil (do
    match ← current with
    | none => fail "unfinished string" .eof
    | some c =>
      if c = delimiter then pure (some ())
      else if c = 0x0A || c = 0x0D then fail "unfinished string" (.str .empty)
      else if c = 0x5C then
        escape
        pure none
      else
        saveNext
        pure none) () (← fuel)
  saveNext
  let b := (← get).buffer
  pure (b.extract 1 (b.size - 1))

def isNameStart (c : UInt8) : Bool := Bytes.isAlpha c || c = 0x5F
def isNamePart (c : UInt8) : Bool := Bytes.isAlnum c || c = 0x5F

/-- A one-character operator that may be followed by one of `seconds` to form a word. -/
def operator (first : Char) (seconds : List Char) : Scan Token := do
  advance
  for c in seconds do
    if ← accept c then return .word (String.ofList [first, c])
  pure (.char (UInt8.ofNat first.toNat))

/-- What is at the scanner: blanks and comments are gone over and give no token. -/
def lexeme : Scan (Option Token) := do
  match ← current with
  | none => pure (some .eof)
  | some c =>
    match Char.ofNat c.toNat with
    | '\n' | '\r' =>
      newline
      pure none
    | ' ' | '\x0c' | '\t' | '\x0b' =>
      advance
      pure none
    | '-' =>
      advance
      if !(← accept '-') then return some (.char 0x2D)
      if (← current) = some 0x5B then
        let size ← bracket
        resetBuffer
        if size ≥ 2 then
          let _ ← longText size false
          resetBuffer
          return none
      repeatUntil (do
        let c ← current
        if c.isNone || isNewline c then pure (some ())
        else
          advance
          pure none) () (← fuel)
      pure none
    | '[' =>
      let size ← bracket
      if size ≥ 2 then
        let b ← longText size true
        pure (some (.str b))
      else if size = 0 then fail "invalid long string delimiter" (.str .empty)
      else pure (some (.char 0x5B))
    | '=' => some <$> operator '=' ['=']
    | '<' => some <$> operator '<' ['=', '<']
    | '>' => some <$> operator '>' ['=', '>']
    | '/' => some <$> operator '/' ['/']
    | '~' => some <$> operator '~' ['=']
    | ':' => some <$> operator ':' [':']
    | '"' | '\'' =>
      let b ← quotedText c
      pure (some (.str b))
    | '.' =>
      saveNext
      if ← accept '.' then
        if ← accept '.' then pure (some (.word "...")) else pure (some (.word ".."))
      else
        match ← current with
        | some d => if Bytes.isDigit d then some <$> numeral else pure (some (.char 0x2E))
        | none => pure (some (.char 0x2E))
    | _ =>
      if Bytes.isDigit c then some <$> numeral
      else if isNameStart c then
        saveWhile isNamePart
        let b := (← get).buffer
        let word := b.toText
        pure (some (if Token.reserved.contains word then .word word else .name b))
      else
        advance
        pure (some (.char c))

/-- The next token. -/
def next : Scan Token := do
  resetBuffer
  repeatUntil lexeme .eof (← fuel)

end Scanner
end ScriptHost.Script
