import ScriptHost.Proofs.Script.Dialogue
import ScriptHost.Proofs.Script.ByteStrings
import ScriptHost.Script.Library.Standard

/-!
# What a function of the library comes to

A function looks at files one after the other, and may call other functions of the
library. `Leads disk n a l P` says that from `a` on, whatever the world is otherwise as
long as its files answer like `disk`, exactly the paths `l` are looked up, and then `P`
holds; calls are nested at most `n` deep.

* `Leads.bind`: one part after the other.
* `leads_firstThere`: of some files those up to the first one that is there.
-/
namespace ScriptHost.Script

/-- What holds at the end of a function, when it went well or has failed. -/
def Outcome {α : Type} (Q : α → Heap → Prop) (E : Fault → Heap → Prop) : Action α → Prop
  | .done b h => Q b h
  | .fail e h => E e h
  | .ask .. => False

/-- From here on the paths of a list are looked up and nothing else, and then `P` holds. -/
inductive Leads (disk : Files) : {α : Type} → Nat → Action α → List String → (Action α → Prop) → Prop
  | here {α : Type} {n : Nat} {a : Action α} {P : Action α → Prop} : P a → Leads disk n a [] P
  /-- At a path the world answers like the disk. -/
  | look {α : Type} {n : Nat} {p : String} {h : Heap} {next : Reply → Heap → Action α} {l : List String}
      {P : Action α → Prop} :
      (∀ w : World, w.files.find p = disk.find p → Leads disk n (next (.ok #[]) { h with world := w }) l P) →
      Leads disk n (.ask (.look (.path p)) h next) (p :: l) P
  | openGate {α : Type} {n : Nat} {name : String} {h : Heap} {next : Reply → Heap → Action α}
      {l : List String} {P : Action α → Prop} :
      (∀ w : World, Leads disk n (next (.ok #[]) { h with world := w }) l P) →
      Leads disk n (.ask (.openGate name) h next) l P
  | awaitGate {α : Type} {n : Nat} {name : String} {h : Heap} {next : Reply → Heap → Action α}
      {l : List String} {P : Action α → Prop} :
      (∀ w : World, Leads disk n (next (.ok #[]) { h with world := w }) l P) →
      Leads disk n (.ask (.awaitGate name) h next) l P
  /-- A function of the library is called; its error is one of the calling function. -/
  | call {α : Type} {n : Nat} {f : Native} {v : Value} {h : Heap} {next : Reply → Heap → Action α}
      {l l' : List String} {P : Action α → Prop} {Q : Array Value → Heap → Prop}
      {E : Fault → Heap → Prop} :
      Leads disk n (f.run 0 #[] #[v] h) l (Outcome Q E) →
      (∀ vs h', Q vs h' → Leads disk (n + 1) (next (.ok vs) h') l' P) →
      (∀ e h', E e h' → l' = [] ∧ P (.fail e h')) →
      Leads disk (n + 1) (.ask (.call (.native f) #[v] false) h next) (l ++ l') P

namespace Leads

variable {α β : Type} {disk : Files} {n : Nat} {a : Action α} {l l' : List String}
  {Q : α → Heap → Prop} {E : Fault → Heap → Prop} {P : Action β → Prop}

theorem weaken {P' : Action α → Prop} {P : Action α → Prop} (h : Leads disk n a l P)
    (more : ∀ c, P c → P' c) : Leads disk n a l P' := by
  induction h with
  | here holds => exact .here (more _ holds)
  | look _ ih => exact .look fun w hw => ih w hw more
  | openGate _ ih => exact .openGate fun w => ih w more
  | awaitGate _ ih => exact .awaitGate fun w => ih w more
  | call inner _ broken _ ih =>
    exact .call inner (fun vs h' q => ih vs h' q more) fun e h' fails =>
      ⟨(broken e h' fails).1, more _ (broken e h' fails).2⟩

/-- One part comes after the other; when the first fails, both do. -/
theorem bind {f : α → Heap → Action β} (first : Leads disk n a l (Outcome Q E))
    (second : ∀ b h, Q b h → Leads disk n (f b h) l' P) (broken : ∀ e h, E e h → l' = [] ∧ P (.fail e h)) :
    Leads disk n (a.bind f) (l ++ l') P := by
  generalize whole : Outcome Q E = O at first
  induction first with
  | @here α n a O holds =>
    subst whole
    cases a with
    | done b h => exact second b h holds
    | fail e h =>
      obtain ⟨rfl, fails⟩ := broken e h holds
      exact .here fails
    | ask => exact holds.elim
  | look _ ih => exact .look fun w hw => ih w hw second whole
  | openGate _ ih => exact .openGate fun w => ih w second whole
  | awaitGate _ ih => exact .awaitGate fun w => ih w second whole
  | call inner _ fails _ ih =>
    subst whole
    rw [List.append_assoc]
    refine .call inner (fun vs h' q => ih vs h' q second rfl) fun e h' hE => ?_
    obtain ⟨rfl, failed⟩ := fails e h' hE
    exact broken e h' failed

theorem bindM {x : HostM α} {f : α → HostM β} {h : Heap} (first : Leads disk n (x h) l (Outcome Q E))
    (second : ∀ b h, Q b h → Leads disk n (f b h) l' P) (broken : ∀ e h, E e h → l' = [] ∧ P (.fail e h)) :
    Leads disk n ((x >>= f) h) (l ++ l') P := by
  rw [HostM.bind_apply]
  exact first.bind second broken

theorem after {x : HostM α} {f : α → HostM β} {h h' : Heap} {b : α} (first : x h = .done b h')
    (second : Leads disk n (f b h') l P) : Leads disk n ((x >>= f) h) l P := by
  rw [HostM.bind_apply, first]
  exact second

theorem done {b : α} {h : Heap} (q : Q b h) : Leads disk n (.done b h) [] (Outcome Q E) := .here q

end Leads

/-! ## Looking files up -/

/-- Only the world has changed. -/
def Seen (h h' : Heap) : Prop := ∃ w : World, h' = { h with world := w }

theorem Seen.refl (h : Heap) : Seen h h := ⟨h.world, rfl⟩

theorem Seen.trans {h h' h'' : Heap} : Seen h h' → Seen h' h'' → Seen h h'' := by
  rintro ⟨_, rfl⟩ ⟨w, rfl⟩
  exact ⟨w, rfl⟩

/-- Nothing fails. -/
def never : Fault → Heap → Prop := fun _ _ => False

namespace Modules

open HostM

variable {α : Type} {disk : Files} {n : Nat} {h : Heap} {l : List String} {P : Action α → Prop}

/-- There is something at a path. -/
def there (disk : Files) (f : Bytes) : Bool := disk.hasEntry f.toText

theorem hasEntry_congr {fs disk : Files} {p : String} (same : fs.find p = disk.find p) :
    fs.hasEntry p = disk.hasEntry p := by rw [Files.hasEntry, same, Files.hasEntry]

/-- What is looked up of some files: those up to the first one that is there. -/
def probed (disk : Files) (files : List Bytes) : List Bytes :=
  files.takeWhile (!there disk ·) ++ (files.find? (there disk)).toList

theorem probed_cons (disk : Files) (f : Bytes) (files : List Bytes) :
    probed disk (f :: files) = f :: if there disk f then [] else probed disk files := by
  rw [probed, List.takeWhile_cons, List.find?_cons]
  cases there disk f <;> simp [probed]

theorem probed_of_none {files : List Bytes} (none : ∀ f ∈ files, there disk f = false) :
    probed disk files = files := by
  induction files with
  | nil => rfl
  | cons f files ih =>
    obtain ⟨here, rest⟩ := List.forall_mem_cons.mp none
    rw [probed_cons, if_neg (by simp [here]), ih rest]

theorem probed_of_first {before after : List Bytes} {f : Bytes} (absent : ∀ g ∈ before, there disk g = false)
    (found : there disk f = true) : probed disk (before ++ f :: after) = before ++ [f] := by
  induction before with
  | nil => rw [List.nil_append, probed_cons, if_pos found, List.nil_append]
  | cons g before ih =>
    obtain ⟨here, rest⟩ := List.forall_mem_cons.mp absent
    rw [List.cons_append, probed_cons, if_neg (by simp [here]), ih rest, List.cons_append]

theorem probed_append (disk : Files) (files files' : List Bytes) : probed disk (files ++ files') =
    probed disk files ++ if files.any (there disk) then [] else probed disk files' := by
  induction files with
  | nil => rfl
  | cons f files ih =>
    rw [List.cons_append, probed_cons, probed_cons, ih, List.any_cons]
    cases there disk f <;> simp

theorem leads_look {f : Bytes} {k : Unit → HostM α}
    (rest : ∀ w : World, w.files.find f.toText = disk.find f.toText →
      Leads disk n (k () { h with world := w }) l P) :
    Leads disk n ((look f >>= k) h) (f.toText :: l) P := by
  rw [bind_apply]
  exact .look rest

theorem leads_call {f : Native} {v : Value} {k : Array Value → HostM α} {l' : List String}
    {Q : Array Value → Heap → Prop} {E : Fault → Heap → Prop}
    (inner : Leads disk n (f.run 0 #[] #[v] h) l (Outcome Q E))
    (rest : ∀ vs h', Q vs h' → Leads disk (n + 1) (k vs h') l' P)
    (broken : ∀ e h', E e h' → l' = [] ∧ P (.fail e h')) :
    Leads disk (n + 1) ((call (.native f) #[v] >>= k) h) (l ++ l') P := by
  rw [bind_apply]
  exact .call inner rest broken

theorem leads_firstThere (files : List Bytes) : Leads disk n (firstThere files h)
    ((probed disk files).map Bytes.toText)
    (Outcome (fun r h' => r = files.find? (there disk) ∧ Seen h h') never) := by
  induction files generalizing h with
  | nil => exact .done ⟨rfl, .refl h⟩
  | cons f files ih =>
    rw [probed_cons, List.map_cons, firstThere]
    refine leads_look fun w same => ?_
    rw [view_bind]
    dsimp only
    rw [hasEntry_congr same]
    change Leads disk n ((if there disk f = true then _ else _ : HostM _) _) _ _
    rw [List.find?_cons]
    cases found : there disk f with
    | true => exact .done ⟨rfl, w, rfl⟩
    | false =>
      refine (ih (h := { h with world := w })).weaken fun c q => ?_
      cases c with
      | done r h' => exact ⟨q.1, Seen.trans ⟨w, rfl⟩ q.2⟩
      | fail | ask => exact q

end Modules
end ScriptHost.Script
