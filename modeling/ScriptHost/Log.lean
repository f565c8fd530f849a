import ScriptHost.Engine

/-!
# The log

Every part of the program has a name, and a record says something about one of
them, at a level of weight. A filter is a list of rules, each for the parts
whose names begin in a certain way; the rule with the longest beginning decides.

What is logged about a worker can be read off the stage it leaves, so the worker
itself knows nothing of the log.
-/
namespace ScriptHost.Log

/-! ## Records -/

/-- How much a record weighs, the gravest first. -/
inductive Level where
  | error | warn | info | debug | trace
  deriving DecidableEq, Repr, Inhabited

def Level.name : Level → String
  | .error => "ERROR" | .warn => "WARN" | .info => "INFO" | .debug => "DEBUG" | .trace => "TRACE"

/-- Its number, from 1 for the gravest. -/
def Level.number : Level → Nat
  | .error => 1 | .warn => 2 | .info => 3 | .debug => 4 | .trace => 5

/-- A part of the program that speaks. -/
inductive Speaker where
  | running | watching | engine | worker
  deriving DecidableEq, Repr

def Speaker.name : Speaker → String
  | .running => "lunar::run"
  | .watching => "lunar::watch"
  | .engine => "lunar_core::execute::engine"
  | .worker => "lunar_core::execute::worker"

structure Record where
  level : Level
  speaker : Speaker
  text : String
  deriving DecidableEq, Repr

/-- A character as a record shows it: those that steer a terminal are spelled out. -/
def shown (c : Char) : List Char :=
  let hex (n : Nat) := Nat.toDigits 16 n
  if c = '\x1b' ∨ c = '\x07' ∨ c = '\x08' ∨ c = '\x0c' ∨ c = '\x7f' then
    '\\' :: 'x' :: (List.replicate (2 - (hex c.toNat).length) '0' ++ hex c.toNat)
  else if 0x80 ≤ c.toNat ∧ c.toNat ≤ 0x9F then ['\\', 'u', '\x7b'] ++ hex c.toNat ++ ['\x7d']
  else [c]

/-- The level and the text, of which each line but the first stands for itself. -/
def Record.lines (r : Record) : List String :=
  (r.level.name ++ " " ++ String.ofList (r.text.toList.flatMap shown)).splitOn "\n"

/-- The record as it stands on standard error, behind the time; its level takes five places. -/
def Record.written (r : Record) : String :=
  "".pushn ' ' (5 - r.level.name.length) ++ "\n".intercalate r.lines ++ "\n"

/-! ## Filters -/

/-- For the parts whose names begin with `speaker`: the number of the lightest level that is kept. -/
structure Rule where
  speaker : String := ""
  keep : Nat
  deriving DecidableEq, Repr

abbrev Filter := List Rule

/-- A level by its name in any case or its number; 0 keeps nothing. -/
def levelNumber? (s : String) : Option Nat :=
  let words := ["off", "error", "warn", "info", "debug", "trace"]
  let s := s.map Char.toLower
  match words.findIdx? (· = s) with
  | some n => some n
  | none => (["0", "1", "2", "3", "4", "5"] : List String).findIdx? (· = s)

def isNameChar (c : Char) : Bool := c.isAlphanum || c = '_' || c = ':' || c = '-'

/-- Reads one rule: a level, the beginning of a name, or both with `=` between them. -/
def Rule.read? (s : String) : Option Rule :=
  match levelNumber? s with
  | some keep => some { keep }
  | none =>
    let speaker := s.toList.takeWhile (· ≠ '=')
    if speaker.isEmpty || !speaker.all isNameChar then none
    else match s.toList.drop speaker.length with
      | [] | ['='] => some ⟨String.ofList speaker, 5⟩
      | _ :: level => (levelNumber? (String.ofList level)).map (⟨String.ofList speaker, ·⟩)

/-- The rules between commas; what cannot be read is left out. The last rule of a name counts. -/
def Filter.read (s : String) : Filter := ((s.splitOn ",").filterMap Rule.read?).reverse

/-- The rule for a part: of those that fit, the one with the longest beginning. -/
def Filter.rule? (f : Filter) (name : String) : Option Rule :=
  f.foldl (fun best r =>
    if !name.startsWith r.speaker then best
    else match best with
      | none => some r
      | some b => if b.speaker.length < r.speaker.length then some r else some b) none

/-- The level `keep` for every part that no rule names. -/
def Filter.withDefault (f : Filter) (keep : Level) : Filter := { keep := keep.number } :: f

def Filter.keeps (f : Filter) (r : Record) : Bool :=
  match f.rule? r.speaker.name with
  | some rule => r.level.number ≤ rule.keep
  | none => false

/-! ## The engine's records -/

def spawned : Record := ⟨.debug, .engine, "worker spawned"⟩

def stopRequested : Record := ⟨.debug, .engine, "stop requested"⟩

def abandoned (joinTimeout : Duration) (leaked : Nat) : Record :=
  ⟨.error, .engine, s!"worker did not stop within " ++ joinTimeout.text ++
    s!"; leaking its thread ({leaked} leaked so far)"⟩

/-! ## The worker's records -/

/-- The outcome of a run as the log names it. -/
def outcomeName : Outcome → String
  | .finished => "Finished"
  | .failed => "Failed"
  | .cancelled => "Cancelled"
  | .channelFailure => "ChannelFailure"
  | .spawnFailure => "SpawnFailure"

variable {σ : Type}

/-- A stage without its script. -/
def shape : Stage σ → Stage Unit
  | .absent => .absent
  | .created => .created
  | .announced => .announced
  | .executing _ => .executing ()
  | .lineStored _ => .lineStored ()
  | .lineMarked _ => .lineMarked ()
  | .testing _ => .testing ()
  | .reporting _ t => .reporting () t
  | .finalizing _ o => .finalizing () o
  | .closing o => .closing o
  | .draining o => .draining o
  | .stopping o => .stopping o
  | .leaving o => .leaving o
  | .ending => .ending
  | .gone => .gone

/-- What a worker has logged with the step by which it left a stage. -/
def ofStep (left : Stage Unit) (r : Run σ) : List Record :=
  let say (level : Level) (text : String) : Record := ⟨level, .worker, text⟩
  match left with
  | .announced => [say .debug s!"worker started ({r.payload.source.size} bytes of script)"]
  | .reporting _ text =>
    (if r.channel.reading then []
      else [say .warn ("failed to write error message to output: " ++ SystemError.brokenPipe.text)]) ++
    [say .debug ("script failed: " ++ text)]
  | .stopping o => [say .debug ("worker stopped: " ++ outcomeName o)]
  | _ => []

end ScriptHost.Log
