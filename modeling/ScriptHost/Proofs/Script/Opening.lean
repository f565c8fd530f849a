import Mathlib
import ScriptHost.Script.Compile.Grammar

/-!
# How the code of a script begins

The main function of every script begins with the instruction that takes the script's
arguments away, has another one behind it, knows the line of each instruction and fits on the
stack. An instruction that is there is changed later on, or taken back, but never the first
one: whoever changes one was given its place by the step that appended it, and whoever takes one
back has looked at what it is.

* `Opening`: what is true of the main function.
* `Progress`: how far a compilation has come; `Progress.Holds` says it of its state.
* `Progress.Keeps`, `Progress.Gives`: a step keeps to that, whether it fails or not.

The modules behind this one have one lemma for each step of the compilation, under its name.
-/
namespace ScriptHost.Script.Compile

open Std.Do

set_option mvcgen.warning false

/-- The code of a main function begins as it should, and has more than `written` instructions. -/
structure Opening (written : Nat) (code : Array Instr) (lines : Array Nat) (stackSize : Nat)
    (isVararg : Bool) : Prop where
  head : ∃ i, code[0]? = some i ∧ i.op = .varargprep ∧ i.a = 0
  size : written < code.size
  lined : lines.size = code.size
  stack : stackSize < maxRegisters
  vararg : isVararg = true

/-- How far a compilation has come: how deep it is in functions below the main one, and how many
instructions of the main function are there to stay. -/
structure Progress where
  depth : Nat
  written : Nat

variable {x : Progress} {α : Type} {written : Nat} {code code' : Array Instr} {lines lines' : Array Nat}
  {stackSize stackSize' : Nat} {isVararg isVararg' : Bool} {outer outer' : List Func} {f f' : Func}

/-! ## The main function -/

namespace Opening

/-- Only an instruction behind the first one is changed to another. -/
theorem modify (h : Opening written code lines stackSize isVararg) (i : Nat) (g : Instr → Instr)
    (hg : i = 0 → ∀ y, (g y).op = y.op ∧ (g y).a = y.a) :
    Opening written (code.modify i g) lines stackSize isVararg := by
  obtain ⟨y, first, op, a⟩ := h.head
  refine ⟨?_, by simpa using h.size, by simpa using h.lined, h.stack, h.vararg⟩
  rw [Array.getElem?_modify, first]
  split
  · rename_i hi
    obtain ⟨op', a'⟩ := hg hi y
    exact ⟨g y, rfl, op'.trans op, a'.trans a⟩
  · exact ⟨y, rfl, op, a⟩

theorem push (h : Opening written code lines stackSize isVararg) (i : Instr) (l : Nat) :
    Opening (written + 1) (code.push i) (lines.push l) stackSize isVararg := by
  obtain ⟨y, first, op, a⟩ := h.head
  have size := h.size
  refine ⟨⟨y, ?_, op, a⟩, by simpa using size, by simpa using h.lined, h.stack, h.vararg⟩
  rw [Array.getElem?_push]
  split
  · omega
  · exact first

theorem pop (h : Opening written code lines stackSize isVararg) (more : written + 1 < code.size) :
    Opening written code.pop lines.pop stackSize isVararg := by
  obtain ⟨y, first, op, a⟩ := h.head
  refine ⟨⟨y, ?_, op, a⟩, ?_, by simpa using congrArg (· - 1) h.lined, h.stack, h.vararg⟩
  · rw [Array.getElem?_pop]
    split
    · exact first
    · omega
  · rw [Array.size_pop]
    omega

theorem lower {written' : Nat} (h : Opening written code lines stackSize isVararg)
    (less : written' ≤ written) : Opening written' code lines stackSize isVararg :=
  { h with size := less.trans_lt h.size }

/-- The first instruction can be told from all that is ever changed or taken back. -/
theorem behind (h : Opening written code lines stackSize isVararg) {i : Nat}
    (op : (code[i]?.getD default).op ≠ .varargprep) : i ≠ 0 := by
  rintro rfl
  obtain ⟨y, first, varargprep, _⟩ := h.head
  rw [first] at op
  exact op varargprep

theorem behind_of_back (h : Opening written code lines stackSize isVararg) {i : Instr}
    (back : code.back? = some i) (op : i.op ≠ .varargprep) : 1 < code.size := by
  rw [Array.back?_eq_getElem?] at back
  have := h.behind (i := code.size - 1) (by simpa [back] using op)
  omega

end Opening

/-- The main function is under construction with more than `written` instructions. -/
abbrev Func.Opens (written : Nat) (f : Func) : Prop :=
  Opening written f.code f.lines f.stackSize f.isVararg

/-! ## Where the main function is -/

namespace Progress

/-- The main function is the outermost one under construction, or the present one if there is no
other. -/
structure Spans (x : Progress) (code : Array Instr) (lines : Array Nat) (stackSize : Nat)
    (isVararg : Bool) (outer : List Func) : Prop where
  nested : outer.length = x.depth
  last : ∀ f ∈ outer.getLast?, f.Opens x.written
  main : x.depth = 0 → Opening x.written code lines stackSize isVararg

/-- One function further in. -/
def inside (x : Progress) : Progress := ⟨x.depth + 1, x.written⟩

namespace Spans

theorem of_main (h : x.Spans code lines stackSize isVararg outer)
    (opens : x.depth = 0 → Opening x.written code' lines' stackSize' isVararg') :
    x.Spans code' lines' stackSize' isVararg' outer :=
  { h with main := opens }

/-- What else is known of the functions does not matter. -/
theorem of_alike (h : x.Spans f.code f.lines f.stackSize f.isVararg outer)
    (alike : (f' :: outer').map (fun f => (f.code, f.lines, f.stackSize, f.isVararg)) =
      (f :: outer).map fun f => (f.code, f.lines, f.stackSize, f.isVararg)) :
    x.Spans f'.code f'.lines f'.stackSize f'.isVararg outer' := by
  obtain ⟨own, others⟩ := List.cons.inj alike
  obtain ⟨code, lines, stackSize, isVararg⟩ : f'.code = f.code ∧ f'.lines = f.lines ∧
      f'.stackSize = f.stackSize ∧ f'.isVararg = f.isVararg := by simpa using own
  refine ⟨?_, fun g hg => ?_, fun hx => ?_⟩
  · have lengths := congrArg List.length others
    simp only [List.length_map] at lengths
    exact lengths.trans h.nested
  · have last := congrArg List.getLast? others
    rw [List.getLast?_map, List.getLast?_map, show outer'.getLast? = some g from hg, eq_comm,
      Option.map_some, Option.map_eq_some_iff] at last
    obtain ⟨f, hf, same⟩ := last
    have opens := h.last f hf
    obtain ⟨code, lines, stackSize, isVararg⟩ : f.code = g.code ∧ f.lines = g.lines ∧
        f.stackSize = g.stackSize ∧ f.isVararg = g.isVararg := by simpa using same
    rwa [Func.Opens, code, lines, stackSize, isVararg] at opens
  · rw [code, lines, stackSize, isVararg]
    exact h.main hx

theorem more (h : x.Spans code lines stackSize isVararg outer) (hx : x.depth = 0) (i : Instr) (l : Nat) :
    Spans ⟨0, x.written + 1⟩ (code.push i) (lines.push l) stackSize isVararg outer := by
  obtain rfl := List.length_eq_zero_iff.mp (h.nested.trans hx)
  exact ⟨rfl, nofun, fun _ => (h.main hx).push i l⟩

/-- A function is begun. -/
theorem enter (h : x.Spans f.code f.lines f.stackSize f.isVararg outer) :
    x.inside.Spans code lines stackSize isVararg (f :: outer) := by
  refine ⟨by simp [inside, h.nested], fun g hg => ?_, nofun⟩
  cases outer with
  | nil =>
    cases hg
    exact h.main h.nested.symm
  | cons f' outer => exact h.last g (by simpa using hg)

/-- A function is at its end, and the one around it goes on. -/
theorem exit (h : x.inside.Spans code lines stackSize isVararg (f :: outer)) :
    x.Spans f.code f.lines f.stackSize f.isVararg outer := by
  have depth : outer.length = x.depth := Nat.succ.inj h.nested
  refine ⟨depth, fun g hg => ?_, fun hx => ?_⟩
  · refine h.last g ?_
    cases outer with
    | nil => cases hg
    | cons f' outer => simpa using hg
  · obtain rfl := List.length_eq_zero_iff.mp (depth.trans hx)
    exact h.last f rfl

theorem not_inside (h : x.inside.Spans code lines stackSize isVararg []) : False := by
  cases h.nested

end Spans

/-! ## Steps of a compilation -/

/-- A compilation has come that far. -/
abbrev Holds (x : Progress) (s : State) : Prop :=
  x.Spans s.func.code s.func.lines s.func.stackSize s.func.isVararg s.outer

abbrev At (x : Progress) : Assertion (.arg State (.except Bytes .pure)) := fun s => ⌜x.Holds s⌝

/-- A step that takes nothing of it back. -/
abbrev Keeps (x : Progress) (c : Comp α) : Prop := ⦃x.At⦄ c ⦃⇓? _ => x.At⦄

/-- A step that takes nothing of it back, and what it gives. -/
abbrev Gives (x : Progress) (c : Comp α) (Q : α → Prop) : Prop :=
  ⦃x.At⦄ c ⦃⇓? a => fun s => ⌜x.Holds s ∧ Q a⌝⦄

end Progress

end ScriptHost.Script.Compile
