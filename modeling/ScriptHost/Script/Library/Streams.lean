import ScriptHost.Script.Library.Strings

/-!
# Files and standard streams

A file is read and written at a place of its own. Reading from a gate waits
until its other side is closed and then finds the end; standard input may stay
open behind its last byte, and who reads on then waits.
-/
namespace ScriptHost.Script.Streams

open HostM

/-- The result of a failed operation: nil, a message and the system's number. -/
def failure (path : Option Bytes) (e : SystemError) : Array Value :=
  let (text, code) : String × Int := match e with
    | .code n => (SystemError.describe n, n)
    | e => (e.text, 0)
  let message := match path with
    | some p => Bytes.cat [p, Bytes.ofText ": ", Bytes.ofText text]
    | none => Bytes.ofText text
  #[.nil, .str message, .ofInt code]

def badDescriptor : SystemError := .code 9

/-! ## Handles -/

def handle (h : Heap) (i : Nat) : Handle := h.handles[i]?.getD { stream := .directory, closed := true }

def modifyHandle (i : Nat) (f : Handle → Handle) : HostM Unit :=
  update fun h => { h with handles := h.handles.modify i f }

/-- A new file value. -/
def newFile (hd : Handle) : HostM Value := change fun h =>
  let i := h.handles.size
  ({ h with handles := h.handles.push hd }).newUserdata (.file i)

/-- A mode of opening. -/
structure Mode where
  readable : Bool
  writable : Bool
  append : Bool := false
  truncate : Bool := false
  create : Bool := false

/-- Reads `r`, `w` or `a`, an optional `+` and any `b`s. -/
def Mode.read? (m : Bytes) : Option Mode :=
  match m.toList with
  | [] => none
  | c :: r =>
    let (plus, r) : Bool × List UInt8 := match r with
      | 0x2B :: r => (true, r)
      | r => (false, r)
    if !r.all (· == 0x62) then none
    else if c = 0x72 then some ⟨true, plus, false, false, false⟩
    else if c = 0x77 then some ⟨plus, true, false, true, true⟩
    else if c = 0x61 then some ⟨plus, true, true, false, true⟩
    else none

/-- Opens a file. A gate opens when its other side does. -/
def openFile (path : Bytes) (m : Mode) : HostM (Except SystemError Value) := do
  let name := path.toText
  look path
  match ← view (fun h => h.world.files.find name) with
  | .ok (_, .gate) =>
    let _ ← ask (.openGate name)
    return .ok (← newFile ⟨.gate name, 0, m.readable, m.writable, false, false, false⟩)
  | .ok (_, .directory) =>
    if m.writable then return .error (.code 21)
    else return .ok (← newFile ⟨.directory, 0, true, false, false, false, false⟩)
  | .ok (r, .file _) =>
    if m.truncate then update (·.modifyFiles (·.write r .empty))
    return .ok (← newFile ⟨.file r, 0, m.readable, m.writable, m.append, false, false⟩)
  | .error e =>
    if !m.create then return .error e
    else
      match ← view (fun h => h.world.files.target name) with
      | .error e => return .error e
      | .ok r =>
        update (·.modifyFiles (·.write r .empty))
        return .ok (← newFile ⟨.file r, 0, m.readable, m.writable, m.append, false, false⟩)

/-- What a stream holds. -/
def content (h : Heap) : Stream → Bytes
  | .file r => match h.world.files.entry? r with
    | some (.file b) => b
    | _ => .empty
  | .stdin => h.world.stdin
  | _ => .empty

/-! ## Reading -/

/-- Waits until standard input holds enough or is closed. -/
def awaitInput (enough : Bytes → Nat → Bool) : Nat → HostM Unit
  | 0 => pure ()
  | fuel + 1 => do
    let w ← view (·.world)
    if w.stdinOpen && !enough w.stdin 0 then
      let _ ← ask (.awaitInput w.stdin.size)
      awaitInput enough fuel

/-- The content and the place, waiting when the stream may go on and there is not `enough`. -/
def available (i : Nat) (enough : Bytes → Nat → Bool) : HostM (Bytes × Nat) := do
  let hd ← view (handle · i)
  match hd.stream with
  | .gate name =>
    let _ ← ask (.awaitGate name)
  | .stdin => awaitInput enough plenty
  | _ => pure ()
  pure (← view (content · hd.stream), hd.pos)

/-- Goes to a place; what was read of standard input is gone. -/
def seekTo (i pos : Nat) : HostM Unit := update fun h =>
  match (handle h i).stream with
  | .stdin => { h with world := { h.world with stdin := h.world.stdin.extract pos h.world.stdin.size } }
  | _ => { h with handles := h.handles.modify i fun hd => { hd with pos } }

/-- The index of the next newline. -/
def newline? (data : Bytes) (pos : Nat) : Option Nat := data.find? (Bytes.ofList [0x0A]) pos

/-- A line, with its end or without; none at the end of the stream. -/
def readLine (i : Nat) (keep : Bool) : HostM (Option Value) := do
  let (data, pos) ← available i fun d p => (newline? d p).isSome
  match newline? data pos with
  | some e =>
    seekTo i (e + 1)
    pure (some (.str (data.extract pos (if keep then e + 1 else e))))
  | none =>
    seekTo i (max pos data.size)
    pure (if pos < data.size then some (.str (data.extract pos data.size)) else none)

def readAll (i : Nat) : HostM (Option Value) := do
  let (data, pos) ← available i fun _ _ => false
  seekTo i (max pos data.size)
  pure (some (.str (data.extract pos data.size)))

/-- Up to `n` bytes; none at the end of the stream. -/
def readCount (i n : Nat) : HostM (Option Value) := do
  let (data, pos) ← available i fun d p => p + max n 1 ≤ d.size
  if pos ≥ data.size then pure none
  else
    let stop := min (pos + n) data.size
    seekTo i stop
    pure (some (.str (data.extract pos stop)))

/-- A byte of a set, put behind what was read. -/
def takeOne (set : List Char) (s : List UInt8 × List UInt8) : Bool × List UInt8 × List UInt8 :=
  match s.2 with
  | c :: r => if set.contains (Char.ofNat c.toNat) then (true, c :: s.1, r) else (false, s)
  | [] => (false, s)

def takeDigits (hex : Bool) (s : List UInt8 × List UInt8) : Nat × List UInt8 × List UInt8 :=
  let ds := s.2.takeWhile (if hex then Bytes.isHexDigit else Bytes.isDigit)
  (ds.length, ds.reverse ++ s.1, s.2.drop ds.length)

/-- The longest start of a text that may be a numeral. -/
def numeral (s : List UInt8) : List UInt8 :=
  let (_, s) := takeOne ['-', '+'] ([], s)
  let (zero, s) := takeOne ['0'] s
  let (hex, s) := if zero then takeOne ['x', 'X'] s else (false, s)
  let (n, s) := takeDigits hex s
  let n := n + (zero && !hex).toNat
  let (dot, s) := takeOne ['.'] s
  let (m, s) := if dot then takeDigits hex s else (0, s)
  let (e, s) := if n + m > 0 then takeOne (if hex then ['p', 'P'] else ['e', 'E']) s else (false, s)
  let s := if e then (takeDigits false (takeOne ['-', '+'] s).2).2 else s
  s.1.reverse

def readNumber (i : Nat) : HostM (Option Value) := do
  let (data, pos) ← available i fun _ _ => false
  let rest := (data.extract pos data.size).toList
  let blank := (rest.takeWhile Bytes.isSpace).length
  let text := numeral ((rest.drop blank).take 200)
  seekTo i (pos + blank + text.length)
  pure (Number.read? (Bytes.ofList text))

/-- Reads by the formats in the arguments from `first` on. -/
def readFormats (args : Args) (i : Nat) : Nat → Nat → Array Value → HostM (Array Value)
  | 0, _, out => pure out
  | fuel + 1, n, out => do
    if isNone args n then pure out
    else
      let r ← match arg args n with
        | .int k => readCount i k.toUInt64.toNat
        | .float _ => do readCount i (← checkInt args n).toUInt64.toNat
        | _ => do
          let p ← checkString args n
          let c := if Bytes.at0 p 0 = 0x2A then Bytes.at0 p 1 else Bytes.at0 p 0
          match Char.ofNat c.toNat with
          | 'n' => readNumber i
          | 'l' => readLine i false
          | 'L' => readLine i true
          | 'a' => readAll i
          | _ => badArg n "invalid format"
      match r with
      | some v => readFormats args i fuel (n + 1) (out.push v)
      | none => pure (out.push .nil)

/-- Reads from a handle; without formats a line. -/
def read (args : Args) (i first : Nat) : HostM (Array Value) := do
  let hd ← view (handle · i)
  if !hd.readable then pure (failure none badDescriptor)
  else match hd.stream with
    | .directory => pure (failure none (.code 21))
    | _ =>
      if isNone args first then do
        match ← readLine i false with
        | some v => pure #[v]
        | none => pure #[.nil]
      else readFormats args i args.size first #[]

/-! ## Writing -/

/-- Writes bytes at the place of a handle. -/
def writeBytes (i : Nat) (b : Bytes) : HostM (Option SystemError) := do
  let hd ← view (handle · i)
  if !hd.writable then pure (some badDescriptor)
  else match hd.stream with
    | .stdout =>
      let _ ← ask (.emit false b)
      pure none
    | .stderr =>
      let _ ← ask (.emit true b)
      pure none
    | .file r =>
      update fun h =>
        let data := content h (.file r)
        let pos := if hd.append then data.size else hd.pos
        let data := data ++ Bytes.ofList (List.replicate (pos - data.size) 0)
        let data := Bytes.cat [data.extract 0 pos, b, data.extract (pos + b.size) data.size]
        { h with
          world := h.world.modifyFiles (·.write r data)
          handles := h.handles.modify i fun hd => { hd with pos := pos + b.size } }
      pure none
    | _ => pure none

/-- Lets go of what a handle holds back. -/
def flushHandle (i : Nat) : HostM Unit := do
  match (← view (handle · i)).stream with
  | .stdout =>
    let _ ← ask .flush
  | _ => pure ()

/-- Writes the arguments from `n` on; `file` is the result. -/
def writeArgs (args : Args) (file : Value) (i : Nat) : Nat → Nat → HostM (Array Value)
  | 0, _ => pure #[file]
  | fuel + 1, n => do
    if isNone args n then pure #[file]
    else
      let b ← checkString args n
      match ← writeBytes i b with
      | some e => pure (failure none e)
      | none => writeArgs args file i fuel (n + 1)

/-! ## File values -/

/-- The handle of a file value. -/
def fileHandle? (h : Heap) (v : Value) : Option Nat :=
  match v with
  | .userdata u => match h.userdata[u]? with
    | some (.file i) => some i
    | _ => none
  | _ => none

def checkFile (args : Args) (n : Nat) : HostM Nat := do
  match ← view (fileHandle? · (arg args n)) with
  | some i => pure i
  | none => typeError args n "FILE*"

/-- The handle of an open file. -/
def checkOpen (args : Args) (n : Nat) : HostM Nat := do
  let i ← checkFile args n
  if (← view (handle · i)).closed then error "attempt to use a closed file" else pure i

def closeHandle (i : Nat) : HostM (Array Value) := do
  if (← view (handle · i)).standard then pure #[.nil, .text "cannot close standard file"]
  else
    modifyHandle i fun hd => { hd with closed := true }
    pure #[.bool true]

/-- The default input or output file. -/
def defaultFile (input : Bool) : HostM (Value × Nat) := do
  let v ← view fun h => if input then h.input else h.output
  match ← view (fileHandle? · v) with
  | some i =>
    if (← view (handle · i)).closed then
      error ("default " ++ (if input then "input" else "output") ++ " file is closed")
    else pure (v, i)
  | none => error "no default file"

/-- Opens a file or fails. -/
def openOrFail (path : Bytes) (m : Mode) : HostM Value := do
  match ← openFile path m with
  | .ok v => pure v
  | .error e =>
    let text := match e with
      | .code n => SystemError.describe n
      | e => e.text
    errorBytes [Bytes.ofText "cannot open file '", path, Bytes.ofText "' (", Bytes.ofText text,
      Bytes.ofText ")"]

def readMode : Mode := ⟨true, false, false, false, false⟩
def writeMode : Mode := ⟨false, true, false, true, true⟩

/-- An iterator over lines, or over what the formats in `formats` read. -/
def iterator (file : Value) (close : Bool) (formats : Array Value) : HostM Value :=
  change (·.newBound (.io .linesStep) (#[file, .bool close] ++ formats))

def linesStep (state : Array Value) : HostM (Array Value) := do
  match ← view (fileHandle? · (arg state 1)) with
  | none => pure #[]
  | some i =>
    if (← view (handle · i)).closed then error "file is already closed"
    else
      let r ← read state i 3
      if (arg r 1).truthy then pure r
      else match arg r 2 with
        | .str msg => if r.size > 1 then errorBytes [msg] else pure #[]
        | _ =>
          if (arg state 2).truthy then
            let _ ← closeHandle i
          pure #[]

def lines (args : Args) : HostM (Array Value) := do
  if isNoneOrNil args 1 then
    let (file, _) ← defaultFile true
    pure #[← iterator file false (args.extract 1 args.size)]
  else
    let path ← checkCString args 1
    let file ← openOrFail path readMode
    pure #[← iterator file true (args.extract 1 args.size), .nil, .nil, file]

/-- Shows or changes the default file. -/
def defaultTo (args : Args) (input : Bool) : HostM (Array Value) := do
  if !isNoneOrNil args 1 then
    let file ← match arg args 1 with
      | .str path => openOrFail path.untilNul (if input then readMode else writeMode)
      | v => do
        let _ ← checkOpen args 1
        pure v
    update fun h => if input then { h with input := file } else { h with output := file }
  pure #[← view fun h => if input then h.input else h.output]

def seek (args : Args) : HostM (Array Value) := do
  let i ← checkOpen args 1
  let whence ← checkOption args 2 (some "cur") ["set", "cur", "end"]
  let offset ← optInt args 3 0
  let hd ← view (handle · i)
  match hd.stream with
  | .file r =>
    let size ← view fun h => (content h (.file r)).size
    let base : Int := match whence with
      | "set" => 0
      | "cur" => hd.pos
      | _ => size
    let pos := base + offset.toInt
    if pos < 0 then pure (failure none (.code 22))
    else
      seekTo i pos.toNat
      pure #[.ofInt pos]
  | _ => pure (failure none (.code 29))

/-- Applies a method of a file. -/
def runMethod (f : FileFn) (args : Args) : HostM (Array Value) :=
  match f with
  | .close => do
    let i ← checkOpen args 1
    closeHandle i
  | .flush => do
    flushHandle (← checkOpen args 1)
    pure #[arg args 1]
  | .lines => do
    let _ ← checkOpen args 1
    pure #[← iterator (arg args 1) false (args.extract 1 args.size)]
  | .read => do
    let i ← checkOpen args 1
    read args i 2
  | .seek => seek args
  | .setvbuf => do
    let _ ← checkOpen args 1
    let _ ← checkOption args 2 none ["no", "full", "line"]
    pure #[.bool true]
  | .write => do
    let i ← checkOpen args 1
    writeArgs args (arg args 1) i args.size 2
  | .tostring => do
    let i ← checkFile args 1
    if (← view (handle · i)).closed then pure #[.text "file (closed)"]
    else pure #[.text ("file (" ++ Heap.address (arg args 1) ++ ")")]
  | .gc => do
    let i ← checkFile args 1
    let hd ← view (handle · i)
    if !hd.closed && !hd.standard then
      let _ ← closeHandle i
    pure #[]

/-- Applies a function on files; `state` is that of an iterator. -/
def run (f : IoFn) (state : Array Value) (args : Args) : HostM (Array Value) :=
  match f with
  | .close => do
    if isNone args 1 then
      let (_, i) ← defaultFile false
      closeHandle i
    else
      let i ← checkOpen args 1
      closeHandle i
  | .flush => do
    let (file, i) ← defaultFile false
    flushHandle i
    pure #[file]
  | .input => defaultTo args true
  | .output => defaultTo args false
  | .lines => lines args
  | .linesStep => linesStep state
  | .open => do
    let path ← checkCString args 1
    let mode ← optString args 2 (Bytes.ofText "r")
    match Mode.read? mode.untilNul with
    | none => badArg 2 "invalid mode"
    | some m =>
      match ← openFile path m with
      | .ok v => pure #[v]
      | .error e => pure (failure (some path) e)
  | .popen => do
    let _ ← checkString args 1
    error "'popen' not supported"
  | .read => do
    let (_, i) ← defaultFile true
    read args i 1
  | .tmpfile => do
    let r ← change fun h =>
      let r : Route := ["/", "tmp", s!"file{h.handles.size}"]
      (r, h.modifyFiles (·.put r (.file .empty)))
    pure #[← newFile ⟨.file r, 0, true, true, false, false, false⟩]
  | .type => do
    let v ← checkAny args 1
    match ← view (fileHandle? · v) with
    | some i =>
      pure #[.text (if (← view (handle · i)).closed then "closed file" else "file")]
    | none => pure #[.nil]
  | .write => do
    let (file, i) ← defaultFile false
    writeArgs args file i args.size 1

end ScriptHost.Script.Streams
