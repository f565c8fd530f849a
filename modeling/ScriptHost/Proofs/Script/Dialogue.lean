import ScriptHost.Script.Host

/-!
# Dialogues with the machine

A function of the library asks, and whoever runs the script answers. Between a
request and its reply any code of the script may run: the heap can change, and
something can be written to the output channel. `Goes a xs c` says that the
exchanges `xs` lead a function from `a` to `c`, for replies and heaps of any kind.

* `Goes.bind_cases`: a dialogue of two parts breaks off in the first, or goes
  through it and is one of the second.
* `Quiet`: a function that never asks for anything to be written.
-/
namespace ScriptHost.Script

/-- A request and what came of it. -/
structure Exchange where
  request : Request
  /-- The heap when it was made. -/
  asked : Heap
  reply : Reply
  /-- The heap when the reply came. -/
  answered : Heap
  /-- What reached the output channel in between, one entry for each write. -/
  written : List Bytes

namespace Action

variable {α β : Type} {a c : Action α} {xs ys : List Exchange}

/-- Exchanges lead from one point of a function to another. -/
inductive Goes : Action α → List Exchange → Action α → Prop
  | stays (a : Action α) : Goes a [] a
  | asks {r : Request} {h : Heap} {next : Reply → Heap → Action α} {xs : List Exchange}
      {c : Action α} (y : Reply) (h' : Heap) (written : List Bytes) :
      Goes (next y h') xs c → Goes (.ask r h next) (⟨r, h, y, h', written⟩ :: xs) c

/-- The function has ended well. -/
def isDone : Action α → Bool
  | .done .. => true
  | _ => false

theorem Goes.done {b : α} {h : Heap} (g : Goes (.done b h) xs c) : xs = [] ∧ c = .done b h := by
  cases g
  exact ⟨rfl, rfl⟩

theorem Goes.fail {e : Fault} {h : Heap} (g : Goes (.fail e h) xs c) : xs = [] ∧ c = .fail e h := by
  cases g
  exact ⟨rfl, rfl⟩

/-- A dialogue of two parts breaks off in the first, or goes through it. -/
theorem Goes.bind_cases {f : α → Heap → Action β} {c : Action β} (g : Goes (a.bind f) xs c) :
    (∃ a', Goes a xs a' ∧ a'.isDone = false ∧ c = a'.bind f) ∨
      ∃ ys zs b h, xs = ys ++ zs ∧ Goes a ys (.done b h) ∧ Goes (f b h) zs c := by
  induction xs generalizing a with
  | nil =>
    cases a with
    | done b h => exact .inr ⟨[], [], b, h, rfl, .stays _, g⟩
    | fail e h =>
      cases g
      exact .inl ⟨_, .stays _, rfl, rfl⟩
    | ask r h next =>
      cases g
      exact .inl ⟨_, .stays _, rfl, rfl⟩
  | cons x xs ih =>
    cases a with
    | done b h => exact .inr ⟨[], _, b, h, rfl, .stays _, g⟩
    | fail e h => cases g
    | ask r h next =>
      cases g with
      | asks y h' written g =>
        rcases ih g with ⟨a', first, undone, rfl⟩ | ⟨ys, zs, b, h'', rfl, first, second⟩
        · exact .inl ⟨a', .asks y h' written first, undone, rfl⟩
        · exact .inr ⟨_, zs, b, h'', rfl, .asks y h' written first, second⟩

theorem Goes.bind {f : α → Heap → Action β} {b : α} {h : Heap} {c : Action β} {zs : List Exchange}
    (first : Goes a xs (.done b h)) (second : Goes (f b h) zs c) : Goes (a.bind f) (xs ++ zs) c := by
  generalize hd : Action.done b h = d at first
  induction first with
  | stays a =>
    subst hd
    exact second
  | asks y h' written _ ih => exact .asks y h' written (ih hd)

theorem bind_assoc {γ : Type} (a : Action α) (f : α → Heap → Action β) (g : β → Heap → Action γ) :
    (a.bind f).bind g = a.bind fun b h => (f b h).bind g := by
  induction a with
  | done b h => rfl
  | fail e h => rfl
  | ask r h next ih =>
    simp only [Action.bind]
    congr
    funext y h'
    exact ih y h'

/-! ## Functions that write nothing -/

/-- Nothing is ever asked to be written. -/
inductive Quiet : Action α → Prop
  | done (b : α) (h : Heap) : Quiet (.done b h)
  | fail (e : Fault) (h : Heap) : Quiet (.fail e h)
  | ask {r : Request} {h : Heap} {next : Reply → Heap → Action α} (other : ∀ b, r ≠ .write b) :
      (∀ y h', Quiet (next y h')) → Quiet (.ask r h next)

theorem Quiet.bind {f : α → Heap → Action β} (first : Quiet a) (second : ∀ b h, Quiet (f b h)) :
    Quiet (a.bind f) := by
  induction first with
  | done b h => exact second b h
  | fail e h => exact .fail e h
  | ask other _ ih => exact .ask other ih

end Action

namespace HostM

variable {α β γ : Type}

theorem bind_apply (x : HostM α) (f : α → HostM β) (h : Heap) : (x >>= f) h = (x h).bind f := by
  change HostM.bind x f h = _
  unfold HostM.bind
  cases x h <;> rfl

theorem bind_assoc (x : HostM α) (f : α → HostM β) (g : β → HostM γ) :
    x >>= f >>= g = x >>= fun b => f b >>= g := by
  funext h
  have inner : (fun b h' => (f b h').bind g) = fun b => f b >>= g :=
    funext fun b => funext fun h' => (bind_apply (f b) g h').symm
  calc (x >>= f >>= g) h = ((x h).bind f).bind g := by rw [bind_apply, bind_apply]
    _ = (x h).bind fun b h' => (f b h').bind g := Action.bind_assoc ..
    _ = (x h).bind fun b => f b >>= g := congrArg (Action.bind (x h)) inner
    _ = (x >>= fun b => f b >>= g) h := (bind_apply ..).symm

/-- Looking at the heap asks nobody. -/
theorem view_bind (f : Heap → α) (g : α → HostM β) (h : Heap) : (view f >>= g) h = g (f h) h := rfl

theorem pure_bind (b : α) (f : α → HostM β) : pure b >>= f = f b := rfl

/-- A value that is found without a function is there at once. -/
theorem index_value {v key r : Value} {h : Heap} (found : h.lookUp v key true maxChain = .value r) :
    index v key h = .done r h := by
  unfold index
  rw [view_bind, found]
  rfl

end HostM

/-! ## What a function writes itself -/

/-- What a function itself has asked to be written. -/
def ownWrites (xs : List Exchange) : List Bytes :=
  xs.filterMap fun x => match x.request with
    | .write b => some b
    | _ => none

/-- All that reached the output channel during a dialogue. -/
def allWrites (xs : List Exchange) : List Bytes := xs.flatMap Exchange.written

theorem ownWrites_append (xs ys : List Exchange) :
    ownWrites (xs ++ ys) = ownWrites xs ++ ownWrites ys := List.filterMap_append ..

theorem allWrites_append (xs ys : List Exchange) :
    allWrites (xs ++ ys) = allWrites xs ++ allWrites ys := List.flatMap_append ..

/-- A function that asks for nothing to be written has no writes of its own. -/
theorem Action.Quiet.ownWrites {α : Type} {a c : Action α} {xs : List Exchange} (quiet : a.Quiet)
    (g : Goes a xs c) : Script.ownWrites xs = [] ∧ c.Quiet := by
  induction g with
  | stays a => exact ⟨rfl, quiet⟩
  | asks y h' written _ ih =>
    cases quiet with
    | ask other rest =>
      obtain ⟨none, quiet⟩ := ih (rest y h')
      refine ⟨?_, quiet⟩
      rw [Script.ownWrites, List.filterMap_cons_none]
      · exact none
      · dsimp only
        split
        · exact absurd rfl (other _)
        · rfl

end ScriptHost.Script
