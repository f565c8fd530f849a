import ScriptHost.Proofs.Script.Opening.Grammar

/-!
# The beginning of a script's code

A script is compiled as the body of a function that takes any number of arguments. That function
is begun with its first instruction, the script's statements keep to it, and the return at its end
is another one.

* `chunk_spec`: what the parts come to, one behind the other.
* `compile_opens`: the code of every script that compiles begins as said.
-/
namespace ScriptHost.Script.Compile

open Std.Do

set_option mvcgen.warning false

/-- Constructs are sound at every level, the lowest of which fails. -/
theorem levels_sound (n : Nat) : (levels n).Sound := by
  induction n with
  | zero => exact ⟨fun x _ => fun s _ => trivial, fun x => fun s _ => trivial⟩
  | succ n ih => exact ⟨fun _ limit => operand_spec ih limit, fun _ => statement_spec ih⟩

/-- The main function is begun. -/
def openChunk : Comp Unit := do
  modify fun s => { s with func := {} }
  enterBlock false
  setVararg 0

/-- All that is read of a script. -/
def chunkBody : Comp Unit := do
  modifyFunc fun f => { f with captures := #[⟨environmentName, true, 0, .regular⟩] }
  nextToken
  statements (levels 210)
  match ← token with
  | .eof => pure ()
  | _ => expected .eof

theorem chunk_eq : chunk = (do
    openChunk
    chunkBody
    closeFunction) := by
  simp only [chunk, openChunk, chunkBody, bind_assoc]
  refine bind_congr fun _ => bind_congr fun _ => bind_congr fun _ => bind_congr fun _ =>
    bind_congr fun _ => bind_congr fun _ => bind_congr fun t => ?_
  cases t <;> rfl

/-- One instruction is there. -/
def Progress.start : Progress := ⟨0, 0⟩

theorem Progress.spans_start (l : Nat) :
    start.Spans (#[].push { op := .varargprep, a := 0 }) (#[].push l) 2 true [] :=
  ⟨rfl, nofun, fun _ => ⟨⟨_, rfl, rfl, rfl⟩, Nat.one_pos, rfl, by decide, rfl⟩⟩

theorem openChunk_spec : ⦃fun s => ⌜s.outer = []⌝⦄ openChunk ⦃⇓? _ => Progress.start.At⦄ := by
  simp only [openChunk, enterBlock, setVararg, modifyFunc, emitABC, emit]
  mvcgen
  rename_i s outermost _ _ _ _
  have spans := Progress.spans_start s.lastLine
  rwa [← outermost] at spans

theorem chunkBody_spec {x : Progress} : x.Keeps chunkBody := by
  mvcgen [chunkBody] with grind [levels_sound]

theorem closeFunction_main : ⦃Progress.start.At⦄ closeFunction
    ⦃⇓? p => ⌜Opening 1 p.code p.lines p.stackSize p.isVararg⌝⦄ := by
  rw [closeFunction_eq]
  refine Triple.bind _ _ varLevel_spec fun level =>
    Triple.bind _ _ (emitReturn_more rfl level (some 0)) fun _ => ?_
  mvcgen with grind [Progress.start]

theorem chunk_spec : ⦃fun s => ⌜s.outer = []⌝⦄ chunk
    ⦃⇓? p => ⌜Opening 1 p.code p.lines p.stackSize p.isVararg⌝⦄ := by
  rw [chunk_eq]
  exact Triple.bind _ _ openChunk_spec fun _ =>
    Triple.bind _ _ chunkBody_spec fun _ => closeFunction_main

theorem holds_of_run {α : Type} {P : State → Prop} {Q : α → Prop} {c : Comp α}
    (h : ⦃fun s => ⌜P s⌝⦄ c ⦃⇓? a => ⌜Q a⌝⦄) {s s' : State} {a : α} (hs : P s)
    (run : c.run s = .ok (a, s')) : Q a := by
  have result : (wp⟦c.run s⟧ (⇓? r => ⌜Q r.1⌝)).down := h s hs
  rw [run] at result
  exact result

end ScriptHost.Script.Compile

namespace ScriptHost.Script

open Compile

/-- **How the code of a script begins.** Whatever the script, if it compiles, its main function takes
its arguments away first, and there is another instruction behind that. -/
theorem compile_opens {source name : Bytes} {p : Proto} (h : compile source name = .ok p) :
    Opening 1 p.code p.lines p.stackSize p.isVararg := by
  unfold compile at h
  dsimp only at h
  split at h
  · rename_i p' s run
    cases h
    exact holds_of_run chunk_spec rfl run
  · cases h

end ScriptHost.Script
