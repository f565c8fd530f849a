import Mathlib.Data.List.Basic
import ScriptHost.Proofs.CommandLine.Showing
import ScriptHost.Proofs.Json.Written

/-!
# The stream of events as JSON

In JSON mode every event is one line, and the line is an object that tells which
event it was. No text of an event can end a line or an object early: a line break
is always written as an escape.

* `Event.read_toJson`: the line of an event is read as its members.
* `splitOn_lines`: the stream is cut into lines where they were joined.
* `json_stream`: every event is had back from the stream.
-/
namespace ScriptHost

namespace Event

/-! ## Events as members -/

/-- The members of the object of an event. -/
def members : Event → List (String × Json.Value)
  | .started => [("event", .string "started")]
  | .stopped o => [("event", .string "stopped"), ("data", .object [("outcome", .string o.name)])]
  | .output t => [("event", .string "output"), ("data", .string t)]
  | .currentLine n => [("event", .string "current_line"), ("data", .number n.toNat.repr.toList)]

/-- The number that digits write, if it is a line number. -/
def lineOfDigits? (ds : List Char) : Option UInt32 :=
  let n := Nat.ofDigitChars 10 ds 0
  if ds.all Char.isDigit && n < UInt32.size then some (UInt32.ofNat n) else none

/-- The event that an object tells of. -/
def ofMembers? (ms : List (String × Json.Value)) : Option Event :=
  match ms.lookup "event", ms.lookup "data" with
  | some (.string "started"), none => some .started
  | some (.string "stopped"), some (.object data) =>
    match data.lookup "outcome" with
    | some (.string o) => (Outcome.ofName? o).map .stopped
    | _ => none
  | some (.string "output"), some (.string t) => some (.output t)
  | some (.string "current_line"), some (.number ds) => (lineOfDigits? ds).map .currentLine
  | _, _ => none

theorem lineOfDigits?_repr (n : UInt32) : lineOfDigits? n.toNat.repr.toList = some n := by
  have all : (Nat.toDigits 10 n.toNat).all Char.isDigit = true :=
    List.all_eq_true.mpr fun _ => Json.isDigit_of_mem
  have small : n.toNat < UInt32.size := n.toNat_lt
  simp [lineOfDigits?, Nat.toList_repr, all, small]

theorem ofMembers?_members (e : Event) : ofMembers? e.members = some e := by
  cases e with
  | started => rfl
  | stopped o => cases o <;> rfl
  | output t => rfl
  | currentLine n =>
    have read := lineOfDigits?_repr n
    change (lineOfDigits? n.toNat.repr.toList).map currentLine = some (.currentLine n)
    rw [read]
    rfl

/-! ## The line of an event -/

/-- A member as it is written. -/
def memberText (name : String) (t : List Char) : List Char := (Json.quote name).toList ++ ':' :: t

/-- An object as it is written. -/
def objectText (ts : List (List Char)) : List Char := '\x7b' :: ([','].intercalate ts ++ ['\x7d'])

/-- The members of an event as they are written. -/
def memberTexts : Event → List (List Char)
  | .started => [memberText "event" (Json.quote "started").toList]
  | .stopped o => [memberText "event" (Json.quote "stopped").toList,
      memberText "data" (objectText [memberText "outcome" (Json.quote o.name).toList])]
  | .output t =>
    [memberText "event" (Json.quote "output").toList, memberText "data" (Json.quote t).toList]
  | .currentLine n =>
    [memberText "event" (Json.quote "current_line").toList, memberText "data" n.toNat.repr.toList]

theorem objectText_singleton (t : List Char) : objectText [t] = '\x7b' :: (t ++ ['\x7d']) := by
  simp [objectText, List.intercalate]

theorem memberText_append (name : String) (t u : List Char) :
    memberText name t ++ u = memberText name (t ++ u) := by
  simp [memberText]

/-- A text that is an object of two members but for what stands in the second. -/
theorem data_toList {front back : String} (name body : String) (t u : List Char)
    (hf : front.toList =
      '\x7b' :: (memberText "event" (Json.quote name).toList ++ ',' :: memberText "data" t))
    (hb : back.toList = u ++ ['\x7d']) :
    (front ++ body ++ back).toList = objectText
      [memberText "event" (Json.quote name).toList, memberText "data" (t ++ body.toList ++ u)] := by
  simp [hf, hb, objectText, memberText, List.intercalate]

theorem toJson_toList (e : Event) : e.toJson.toList = objectText e.memberTexts := by
  cases e with
  | started =>
    simp only [memberTexts, memberText, Json.quote_toList]
    rfl
  | stopped o =>
    refine (data_toList "stopped" (Json.quote o.name) ('\x7b' :: memberText "outcome" []) ['\x7d']
      ?_ rfl).trans ?_
    · simp only [memberText, Json.quote_toList]
      decide +kernel
    · rw [List.cons_append, List.cons_append, memberText_append, List.nil_append,
        ← objectText_singleton]
      rfl
  | output t =>
    refine (data_toList "output" (Json.quote t) [] [] ?_ rfl).trans ?_
    · simp only [memberText, Json.quote_toList]
      rfl
    · rw [List.nil_append, List.append_nil]
      rfl
  | currentLine n =>
    refine (data_toList "current_line" n.toNat.repr [] [] ?_ rfl).trans ?_
    · simp only [memberText, Json.quote_toList]
      rfl
    · rw [List.nil_append, List.append_nil]
      rfl

theorem reads_memberTexts (depth : Nat) (e : Event) :
    List.Forall₂ (Json.Reads (Json.member (Json.value (depth + 2)))) e.members e.memberTexts := by
  have text (d : Nat) (name s : String) := Json.reads_member name (Json.reads_quote d s)
  cases e with
  | started => exact .cons (text _ _ _) .nil
  | stopped o =>
    have data := Json.reads_object (.cons (text depth "outcome" o.name) .nil)
    exact .cons (text _ _ _) (.cons (Json.reads_member _ data) .nil)
  | output t => exact .cons (text _ _ _) (.cons (text _ _ _) .nil)
  | currentLine n => exact .cons (text _ _ _) (.cons (Json.reads_member _ (Json.reads_repr _ _)) .nil)

/-- The line of an event is read as its members. -/
theorem read_toJson (e : Event) : Json.read? e.toJson.toList = some (.object e.members) := by
  obtain ⟨depth, hd⟩ : ∃ depth, e.toJson.toList.length + 1 = depth + 3 := by
    rw [toJson_toList, objectText]
    exact ⟨([','].intercalate e.memberTexts).length, by simp⟩
  apply Json.read?_of_reads
  rw [hd, toJson_toList]
  exact Json.reads_object (reads_memberTexts depth e)

theorem toJson_injective : Function.Injective fun e : Event => e.toJson.toList := by
  intro e e' h
  have same : some (Json.Value.object e.members) = some (.object e'.members) := by
    rw [← read_toJson, ← read_toJson]
    exact congrArg Json.read? h
  have members : e.members = e'.members := by simpa using same
  exact Option.some.inj (by rw [← ofMembers?_members e, ← ofMembers?_members e', members])

/-! ## Lines -/

theorem newline_notMem_quote (s : String) : '\n' ∉ (Json.quote s).toList := by
  simp [Json.quote_toList, Json.newline_notMem_escape]

theorem newline_notMem_digits (n : Nat) : '\n' ∉ n.repr.toList := by
  intro h
  rw [Nat.toList_repr] at h
  exact absurd (Json.isDigit_of_mem h) (by decide)

/-- An event is told in one line. -/
theorem newline_notMem_toJson (e : Event) : '\n' ∉ e.toJson.toList := by
  have parts {front body back : String} (hf : '\n' ∉ front.toList) (hb : '\n' ∉ body.toList)
      (he : '\n' ∉ back.toList) : '\n' ∉ (front ++ body ++ back).toList := by
    simp only [String.toList_append, List.mem_append, not_or]
    exact ⟨⟨hf, hb⟩, he⟩
  cases e with
  | started => decide
  | stopped o => exact parts (by decide) (newline_notMem_quote o.name) (by decide)
  | output t => exact parts (by decide) (newline_notMem_quote t) (by decide)
  | currentLine n => exact parts (by decide) (newline_notMem_digits n.toNat) (by decide)

end Event

theorem splitOn_lines (ls : List (List Char)) (h : ∀ l ∈ ls, '\n' ∉ l) :
    (ls.flatMap (· ++ ['\n'])).splitOn '\n' = ls ++ [[]] := by
  induction ls with
  | nil => rfl
  | cons l ls ih =>
    have ih := ih fun l' hl => h l' (List.mem_cons_of_mem _ hl)
    rw [List.flatMap_cons, List.append_assoc, List.singleton_append,
      List.splitOn_append_cons_self_of_not_mem (h l List.mem_cons_self), ih]
    rfl

theorem bytesOf_injective : Function.Injective bytesOf := by
  intro s t h
  rw [← Utf8.lossy_toUTF8 s, ← Utf8.lossy_toUTF8 t]
  exact congrArg Utf8.lossy h

namespace CommandLine.Job

variable {σ : Type} {j : Job σ}

/-- The stream of events: a line for each. -/
def stream (es : List Event) : String := String.join (es.map fun e => e.toJson ++ "\n")

theorem stream_cons (e : Event) (es : List Event) :
    stream (e :: es) = e.toJson ++ "\n" ++ stream es := by
  simp [stream]

theorem stream_toList (es : List Event) :
    (stream es).toList = (es.map fun e => e.toJson.toList).flatMap (· ++ ['\n']) := by
  induction es with
  | nil => rfl
  | cons e es ih =>
    rw [stream_cons, String.toList_append, String.toList_append, ih]
    rfl

theorem bytesOf_stream (es : List Event) :
    bytesOf (stream es) = es.flatMap (Console.outBytes .json) := by
  induction es with
  | nil => exact bytesOf_empty
  | cons e es ih =>
    rw [stream_cons, bytesOf_append, ih]
    rfl

/-- In JSON mode, the stream of events is what is printed. -/
theorem stdout_print (json : j.mode = .json) (es : List Event) :
    (j.print es).stdout = j.stdout ++ bytesOf (stream es) := by
  have shown := (shows_print j es).out
  rw [json] at shown
  rw [shown, bytesOf_stream]

/-- The pieces of the stream are the lines of the events, and nothing stands behind the last one. -/
theorem splitOn_stream (es : List Event) :
    (stream es).toList.splitOn '\n' = es.map (fun e => e.toJson.toList) ++ [[]] := by
  rw [stream_toList]
  refine splitOn_lines _ fun l hl => ?_
  obtain ⟨e, -, rfl⟩ := List.mem_map.mp hl
  exact e.newline_notMem_toJson

theorem stream_injective : Function.Injective stream := by
  intro es es' h
  have lines : es.map (fun e => e.toJson.toList) ++ [[]] =
      es'.map (fun e => e.toJson.toList) ++ [[]] := by
    rw [← splitOn_stream, ← splitOn_stream, h]
  exact Event.toJson_injective.list_map (List.append_cancel_right lines)

/-- A line that is an object from which the event is had back. -/
def Tells (line : List Char) (e : Event) : Prop :=
  line ≠ [] ∧ ∃ ms, Json.read? line = some (.object ms) ∧ Event.ofMembers? ms = some e

/-- **The stream of events can be read back.** What is printed of events in JSON mode is a line for
each event and nothing else, whatever characters their texts hold, and an event is had back from its
line; so different events print differently. -/
theorem json_stream (json : j.mode = .json) (es : List Event) :
    (j.print es).stdout = j.stdout ++ bytesOf (stream es) ∧
      (∃ lines, (stream es).toList.splitOn '\n' = lines ++ [[]] ∧ List.Forall₂ Tells lines es) ∧
      ∀ es', (j.print es').stdout = (j.print es).stdout → es' = es := by
  refine ⟨stdout_print json es, ⟨_, splitOn_stream es, ?_⟩, fun es' h => ?_⟩
  · rw [List.forall₂_map_left_iff, List.forall₂_same]
    intro e _
    refine ⟨?_, e.members, e.read_toJson, e.ofMembers?_members⟩
    intro h
    have nothing : Json.read? [] = some (.object e.members) := h ▸ e.read_toJson
    cases nothing
  · rw [stdout_print json, stdout_print json] at h
    exact stream_injective (bytesOf_injective (List.append_cancel_left h))

/-- A text that tries to end its line and its string. -/
theorem json_stream_escaped :
    let j : Job Unit := { engine := { world := {} }, mode := .json, filter := filterFor {} false }
    let es : List Event := [.started, .output "é\x01\n\"\x7d", .stopped .finished]
    j.mode = .json ∧
      (j.print es).stdout = bytesOf ("\x7b\"event\":\"started\"\x7d\n" ++
        "\x7b\"event\":\"output\",\"data\":\"é\\u0001\\n\\\"\x7d\"\x7d\n" ++
        "\x7b\"event\":\"stopped\",\"data\":\x7b\"outcome\":\"finished\"\x7d\x7d\n") ∧
      ∃ lines, (stream es).toList.splitOn '\n' = lines ++ [[]] ∧ List.Forall₂ Tells lines es := by
  intro j es
  have all := json_stream (j := j) rfl es
  have text : stream es = "\x7b\"event\":\"started\"\x7d\n" ++
        "\x7b\"event\":\"output\",\"data\":\"é\\u0001\\n\\\"\x7d\"\x7d\n" ++
        "\x7b\"event\":\"stopped\",\"data\":\x7b\"outcome\":\"finished\"\x7d\x7d\n" := by
    apply String.toList_injective
    simp only [es, stream_toList, List.map_cons, List.map_nil, Event.toJson_toList, Event.memberTexts,
      Event.memberText, Json.quote_toList]
    decide +kernel
  exact ⟨rfl, text ▸ all.1, all.2.1⟩

end CommandLine.Job
end ScriptHost
