import ScriptHost.Script.Library.Streams

/-!
# Functions of the system

Dates are those of the proleptic Gregorian calendar without leap seconds, in
universal time.
-/
namespace ScriptHost.Script.System

open HostM

/-! ## Dates -/

/-- Days from 1970-01-01 to a date; `month` counts from 1. -/
def daysOfDate (year month day : Int) : Int :=
  let y := if month ≤ 2 then year - 1 else year
  let era := y.fdiv 400
  let yoe := y - era * 400
  let mp := (month + 9) % 12
  let doy := (153 * mp + 2) / 5 + day - 1
  let doe := yoe * 365 + yoe / 4 - yoe / 100 + doy
  era * 146097 + doe - 719468

/-- Year, month and day of a number of days since 1970-01-01. -/
def dateOfDays (days : Int) : Int × Int × Int :=
  let z := days + 719468
  let era := z.fdiv 146097
  let doe := z - era * 146097
  let yoe := (doe - doe / 1460 + doe / 36524 - doe / 146096) / 365
  let doy := doe - (365 * yoe + yoe / 4 - yoe / 100)
  let mp := (5 * doy + 2) / 153
  let day := doy - (153 * mp + 2) / 5 + 1
  let month := if mp < 10 then mp + 3 else mp - 9
  (yoe + era * 400 + (if month ≤ 2 then 1 else 0), month, day)

/-- A moment by its parts. -/
structure Moment where
  year : Int
  month : Int
  day : Int
  hour : Int
  minute : Int
  second : Int
  /-- Sunday is 0. -/
  weekday : Int
  /-- The first day of the year is 0. -/
  yearday : Int

def Moment.ofSeconds (t : Int) : Moment :=
  let days := t.fdiv 86400
  let s := t - days * 86400
  let (y, m, d) := dateOfDays days
  ⟨y, m, d, s / 3600, s / 60 % 60, s % 60, (days + 4) % 7, days - daysOfDate y 1 1⟩

/-- The seconds of a date whose parts need not be in range. -/
def secondsOf (year month day hour minute second : Int) : Int :=
  let months := year * 12 + month - 1
  daysOfDate (months.fdiv 12) (months % 12 + 1) 1 * 86400 + (day - 1) * 86400 + hour * 3600 + minute * 60 + second

def dayNames : List String :=
  ["Sunday", "Monday", "Tuesday", "Wednesday", "Thursday", "Friday", "Saturday"]

def monthNames : List String :=
  ["January", "February", "March", "April", "May", "June", "July", "August", "September",
    "October", "November", "December"]

def two (n : Int) : String := String.ofList (Decimal.padded 2 n.toNat)

/-- A conversion of a moment to text. -/
def Moment.part? (m : Moment) (c : Char) : Option String :=
  let dayName := (dayNames[m.weekday.toNat]?).getD ""
  let monthName := (monthNames[(m.month - 1).toNat]?).getD ""
  let short (s : String) := String.ofList (s.toList.take 3)
  let blank (n : Int) := if n < 10 then " " ++ toString n else toString n
  let time := two m.hour ++ ":" ++ two m.minute ++ ":" ++ two m.second
  let date := two m.month ++ "/" ++ two m.day ++ "/" ++ two (m.year % 100)
  let hour12 := if m.hour % 12 = 0 then 12 else m.hour % 12
  match c with
  | 'a' => some (short dayName)
  | 'A' => some dayName
  | 'b' | 'h' => some (short monthName)
  | 'B' => some monthName
  | 'c' => some (short dayName ++ " " ++ short monthName ++ " " ++ blank m.day ++ " " ++ time ++ " " ++ toString m.year)
  | 'C' => some (two (m.year / 100))
  | 'd' => some (two m.day)
  | 'D' | 'x' => some date
  | 'e' => some (blank m.day)
  | 'F' => some (toString m.year ++ "-" ++ two m.month ++ "-" ++ two m.day)
  | 'H' => some (two m.hour)
  | 'I' => some (two hour12)
  | 'j' => some (String.ofList (Decimal.padded 3 (m.yearday + 1).toNat))
  | 'm' => some (two m.month)
  | 'M' => some (two m.minute)
  | 'n' => some "\n"
  | 'p' => some (if m.hour < 12 then "AM" else "PM")
  | 'r' => some (two hour12 ++ ":" ++ two m.minute ++ ":" ++ two m.second ++ (if m.hour < 12 then " AM" else " PM"))
  | 'R' => some (two m.hour ++ ":" ++ two m.minute)
  | 'S' => some (two m.second)
  | 't' => some "\t"
  | 'T' | 'X' => some time
  | 'u' => some (toString (if m.weekday = 0 then 7 else m.weekday))
  | 'U' => some (two ((m.yearday + 7 - m.weekday) / 7))
  | 'w' => some (toString m.weekday)
  | 'W' => some (two ((m.yearday + 7 - (m.weekday + 6) % 7) / 7))
  | 'y' => some (two (m.year % 100))
  | 'Y' => some (toString m.year)
  | 'z' => some "+0000"
  | 'Z' => some "GMT"
  | '%' => some "%"
  | _ => none

/-- Writes a moment by a format. -/
def formatMoment (m : Moment) : List UInt8 → Bytes → HostM Bytes
  | [], out => pure out
  | [c], out =>
    if c = 0x25 then badArg 1 "invalid conversion specifier '%'" else pure (out.push c)
  | c :: d :: r, out =>
    if c != 0x25 then formatMoment m (d :: r) (out.push c)
    else
      let letter := Char.ofNat d.toNat
      match m.part? letter with
      | some s => formatMoment m r (out ++ Bytes.ofText s)
      | none => badArg 1 ("invalid conversion specifier '%" ++ letter.toString ++ "'")

/-- The second at which the system's clock stands. -/
def now : HostM Int := view fun h => h.world.time / 1000000000

def date (args : Args) : HostM (Array Value) := do
  let fmt ← optString args 1 (Bytes.ofText "%c")
  let t ← if isNoneOrNil args 2 then now else do pure (← checkInt args 2).toInt
  let fmt := fmt.toList
  let fmt := if fmt.head? = some 0x21 then fmt.drop 1 else fmt
  let m := Moment.ofSeconds t
  if fmt.take 2 == [0x2A, 0x74] then
    let t : Table := {}
    let t := [("year", m.year), ("month", m.month), ("day", m.day), ("hour", m.hour), ("min", m.minute),
      ("sec", m.second), ("yday", m.yearday + 1), ("wday", m.weekday + 1)].foldl
        (fun t (k, v) => t.setText k (.ofInt v)) t
    pure #[← newTable (t.setText "isdst" (.bool false))]
  else pure #[.str (← formatMoment m fmt .empty)]

/-- A field of a date table; `dflt` when it is absent. -/
def dateField (t : Value) (name : String) (dflt : Option Int) : HostM Int := do
  let v ← index t (.text name)
  match Number.coerceInt? v with
  | some n => pure n.toInt
  | none =>
    if !v.isNil then error s!"field '{name}' is not an integer"
    else match dflt with
      | some d => pure d
      | none => error s!"field '{name}' missing in date table"

def time (args : Args) : HostM (Array Value) := do
  if isNoneOrNil args 1 then return #[.ofInt (← now)]
  else
    let _ ← checkTable args 1
    let t := arg args 1
    let year ← dateField t "year" none
    let month ← dateField t "month" none
    let day ← dateField t "day" none
    let hour ← dateField t "hour" (some 12)
    let minute ← dateField t "min" (some 0)
    let second ← dateField t "sec" (some 0)
    let seconds := secondsOf year month day hour minute second
    let m := Moment.ofSeconds seconds
    -- the fields are brought into range
    for (k, v) in [("year", m.year), ("month", m.month), ("day", m.day), ("hour", m.hour),
        ("min", m.minute), ("sec", m.second), ("yday", m.yearday + 1), ("wday", m.weekday + 1)] do
      setIndex t (.text k) (.ofInt v)
    setIndex t (.text "isdst") (.bool false)
    pure #[.ofInt seconds]

/-- Applies a function of the system. -/
def run (f : OsFn) (args : Args) : HostM (Array Value) :=
  match f with
  | .clock => return #[.float (Float.ofNat (← view (·.world.spent)) / 1e9)]
  | .date => date args
  | .difftime => do
    let a ← checkFloat args 1
    return #[.float (a - (← checkFloat args 2))]
  | .execute => do
    if isNoneOrNil args 1 then pure #[.bool true]
    else
      let _ ← checkString args 1
      pure #[.nil, .text "exit", .int 127]
  | .exit => do
    let code : Int ← match arg args 1 with
      | .nil | .bool true => pure 0
      | .bool false => pure 1
      | _ => do pure (← checkInt args 1).toInt
    request (.exit code)
  | .getenv => do
    let name ← checkCString args 1
    let _ ← ask (.look (.variable name.toText))
    let env ← view (·.world.environment)
    match env.find? (fun e => Bytes.ofText e.1 == name) with
    | some e => pure #[.text e.2]
    | none => pure #[.nil]
  | .remove => do
    let path ← checkCString args 1
    look path
    match ← view (fun h => h.world.files.remove path.toText) with
    | .ok files =>
      update (·.modifyFiles fun _ => files)
      pure #[.bool true]
    | .error e => pure (Streams.failure (some path) e)
  | .rename => do
    let old ← checkCString args 1
    let new ← checkCString args 2
    look old
    look new
    match ← view (fun h => h.world.files.rename old.toText new.toText) with
    | .ok files =>
      update (·.modifyFiles fun _ => files)
      pure #[.bool true]
    | .error e => pure (Streams.failure none e)
  | .setlocale => do
    let name ← if isNoneOrNil args 1 then pure none else do pure (some (← checkCString args 1))
    let _ ← checkOption args 2 (some "all") ["all", "collate", "ctype", "monetary", "numeric", "time"]
    let known := ["", "C", "POSIX"].map Bytes.ofText
    match name with
    | none => pure #[.text "C"]
    | some n => pure #[if known.any (· == n) then .text "C" else .nil]
  | .time => time args
  | .tmpname => pure #[.text "/tmp/lua_a1b2c3"]

end ScriptHost.Script.System
