import ScriptHost.Proofs.Search.Leads
import ScriptHost.Script.Machine.Step

/-!
# Functions of the library in the machine

What a function of the library comes to as a tree of requests it comes to in the machine:
each request is one step, a path is looked up by whoever runs the machine, and a call of
another function of the library is a frame that is entered and left.

* `Reaches`: the paths that a machine asks for before something holds.
* `Fit`: the machine has room for the calls and no hook of the script that would see them.
* `reaches_called`, `reaches_returned`: a function is entered and left.
* `reaches_of_leads`: `Leads` for the tree is `Reaches` for the machine.
-/
namespace ScriptHost.Script

namespace Machine

/-- Another world is before the script's eyes. -/
def withWorld (m : Machine) (w : World) : Machine := { m with heap := { m.heap with world := w } }

/-- The machine asks for the paths of a list and for no others before it is at a point with `P`,
whatever the world is otherwise as long as its files answer like the disk. -/
inductive Reaches (disk : Files) (P : Machine → Prop) : List String → Machine → Prop
  | here {m : Machine} : P m → Reaches disk P [] m
  | step {m : Machine} {l : List String} :
      m.isResting = false → Reaches disk P l m.step → Reaches disk P l m
  | look {m : Machine} {p : String} {l : List String} : m.todo = .outside (.look (.path p)) →
      (∀ w : World, w.files.find p = disk.find p → Reaches disk P l ((m.reply (.ok #[])).withWorld w)) →
      Reaches disk P (p :: l) m
  | openGate {m : Machine} {name : String} {l : List String} : m.todo = .outside (.openGate name) →
      (∀ w : World, Reaches disk P l ((m.reply (.ok #[])).withWorld w)) → Reaches disk P l m
  | awaitGate {m : Machine} {name : String} {l : List String} : m.todo = .outside (.awaitGate name) →
      (∀ w : World, Reaches disk P l ((m.reply (.ok #[])).withWorld w)) → Reaches disk P l m

/-- Another moment of the running function. -/
def moment (m : Machine) (heap : Heap) (stack : Array Value)
    (next : Option (Reply → Heap → Action (Array Value))) (todo : Todo) : Machine :=
  { m with heap, stack, frame := { m.frame with next }, todo }

/-- The same frame at another moment of its function. -/
def Like (m m' : Machine) : Prop := ∃ heap stack next todo, m' = m.moment heap stack next todo

/-- There is room for calls nested `n` deep, of one argument each, and nobody watches them. -/
structure Fit (n : Nat) (m : Machine) : Prop where
  depth : m.depth + n < maxDepth
  room : m.frame.top + 2 * n + 20 ≤ m.stackLimit
  calls : m.hookWants 'c' = false
  returns : m.hookWants 'r' = false
  kind : m.frame.kind = .native
  guard : m.frame.guard = none

variable {m m' : Machine} {n : Nat} {f : Native} {v : Value} {vs stack : Array Value} {h : Heap}
  {disk : Files} {P : Machine → Prop} {l : List String} {F : HostM (Array Value)}
  {next : Reply → Heap → Action (Array Value)}

theorem Like.moment (m : Machine) (heap : Heap) (stack : Array Value)
    (next : Option (Reply → Heap → Action (Array Value))) (todo : Todo) :
    Like m (m.moment heap stack next todo) := ⟨heap, stack, next, todo, rfl⟩

theorem Like.refl (m : Machine) : Like m m := ⟨m.heap, m.stack, m.frame.next, m.todo, rfl⟩

theorem Like.trans {m'' : Machine} : Like m m' → Like m' m'' → Like m m'' := by
  rintro ⟨_, _, _, _, rfl⟩ ⟨heap, stack, next, todo, rfl⟩
  exact ⟨heap, stack, next, todo, rfl⟩

theorem Fit.like (fit : Fit n m) (like : Like m m') : Fit n m' := by
  obtain ⟨_, _, _, _, rfl⟩ := like
  exact ⟨fit.depth, fit.room, fit.calls, fit.returns, fit.kind, fit.guard⟩

/-! ## The stack -/

theorem growTo_eq (stack : Array Value) (size : Nat) :
    growTo stack size = stack ++ Array.replicate (size - stack.size) .nil := by
  unfold growTo
  generalize size - stack.size = n
  induction n with
  | zero => simp
  | succ n ih => rw [Nat.fold_succ, ih, Array.push_append, Array.replicate_succ]

theorem size_growTo (stack : Array Value) (size : Nat) : size ≤ (growTo stack size).size := by
  rw [growTo_eq, Array.size_append, Array.size_replicate]
  omega

theorem reserve_eq (m : Machine) (size : Nat) :
    ∃ stack : Array Value, size ≤ stack.size ∧ m.reserve size = { m with stack } := by
  rw [reserve]
  split
  · exact ⟨m.stack, ‹_›, rfl⟩
  · exact ⟨_, size_growTo _ _, rfl⟩

/-- Values that are written one after the other stand in their order. -/
theorem foldl_setIfInBounds (vs stack : Array Value) (first : Nat) (room : first + vs.size ≤ stack.size) :
    ∀ i < vs.size,
      (vs.foldl (fun (s, i) v => (s.setIfInBounds i v, i + 1)) (stack, first)).1[first + i]? = vs[i]? := by
  refine (Array.foldl_induction (motive := fun n (x : Array Value × Nat) =>
    x.2 = first + n ∧ x.1.size = stack.size ∧ ∀ i < n, x.1[first + i]? = vs[i]?) ?_ ?_).2.2
  · exact ⟨rfl, rfl, nofun⟩
  · rintro k ⟨s, slot⟩ ⟨here, size, placed⟩
    refine ⟨congrArg (· + 1) here, by simpa using size, fun i hi => ?_⟩
    have := k.isLt
    dsimp only at here size placed ⊢
    rw [here, Array.getElem?_setIfInBounds]
    split
    · obtain rfl : i = k := by omega
      rw [if_pos (by omega)]
      simp
    · exact placed i (by omega)

/-- Values that are put stand in their order from their slot on. -/
theorem putValues_eq (m : Machine) (first : Nat) (vs : Array Value) : ∃ stack : Array Value,
    (∀ i < vs.size, stack[first + i]? = vs[i]?) ∧ m.putValues first vs = { m with stack } := by
  obtain ⟨stack, enough, reserved⟩ := m.reserve_eq (first + vs.size)
  refine ⟨_, foldl_setIfInBounds vs stack first enough, ?_⟩
  simp only [putValues, reserved]

/-- A function that is called stands above the running one, and its arguments behind it. -/
theorem callAbove_eq (m : Machine) (slot : Nat) (f : Value) (args : Array Value) (wanted : Option Nat)
    (role : Role) (nesting : Nesting) : ∃ stack : Array Value,
    stack[slot]? = some f ∧ (∀ i < args.size, stack[slot + 1 + i]? = args[i]?) ∧
      m.callAbove slot f args wanted role nesting =
        { m with stack, todo := .enter slot args.size wanted role nesting } := by
  obtain ⟨stack, _, reserved⟩ := m.reserve_eq (slot + args.size + 4)
  obtain ⟨stack', placed, put⟩ := putValues_eq { m with stack } slot (#[f] ++ args)
  refine ⟨stack', ?_, fun i hi => ?_, ?_⟩
  · have some : 0 < (#[f] ++ args).size := by
      rw [Array.size_append]
      exact Nat.lt_add_right _ Nat.one_pos
    exact (placed 0 some).trans (Array.getElem?_append_left Nat.one_pos)
  · have := placed (i + 1) (by simpa [Nat.add_comm] using hi)
    rw [show slot + 1 + i = slot + (i + 1) by omega, this, Array.getElem?_append_right (by simp)]
    rfl
  · simp only [callAbove, reserved, put]

/-! ## Steps of a function -/

theorem step_ask {r : Request} (todo : m.todo = .act F) (asks : F m.heap = .ask r h next) :
    m.step = serve { m with heap := h, frame := { m.frame with next := some next }, todo := .leave } r := by
  rw [step, todo]
  change m.act F = _
  rw [act, asks]

theorem step_done (todo : m.todo = .act F) (done : F m.heap = .done vs h) :
    m.step = { m with heap := h, todo := .give vs } := by
  rw [step, todo]
  change m.act F = _
  rw [act, done]

/-- The machine counts a call. -/
def nested (m : Machine) (nesting : Nesting) : Machine :=
  { m with
    depth := if nesting = .flat then m.depth else m.depth + 1
    noYield := if nesting = .fixed then m.noYield + 1 else m.noYield }

section
variable {slot args : Nat} {wanted : Option Nat} {role : Role} {nesting : Nesting}

theorem not_too_deep (depth : m.depth + 1 < maxDepth) (nesting : Nesting) :
    ¬ (nesting ≠ .flat ∧ (if nesting = .flat then m.depth else m.depth + 1) = maxDepth) ∧
      ¬ (nesting ≠ .flat ∧ (if nesting = .flat then m.depth else m.depth + 1) ≥ maxDepth / 10 * 11) := by
  rw [maxDepth] at depth ⊢
  split
  · exact ⟨fun h => h.1 ‹_›, fun h => h.1 ‹_›⟩
  · constructor <;> omega

theorem enter_closure {c : Nat} (closure : m.slot slot = .closure c) (depth : m.depth + 1 < maxDepth) :
    m.enter slot args wanted role nesting =
      (m.nested nesting).enterScript c (m.heap.closures[c]?.getD default).proto
        { func := slot, dest := slot, wanted, role, depth := m.depth, noYield := m.noYield } args := by
  obtain ⟨shallow, below⟩ := not_too_deep depth nesting
  rw [enter]
  dsimp only
  rw [if_neg shallow, if_neg below, closure]
  rfl

theorem enter_native (native : m.slot slot = .native f) (depth : m.depth + 1 < maxDepth)
    (room : slot + 1 + args + 20 ≤ m.stackLimit) (calls : m.hookWants 'c' = false) :
    m.enter slot args wanted role nesting =
      { m.nested nesting with
        frame :=
          { kind := .native, func := slot, dest := slot, top := slot + 1 + args, wanted, role
            depth := m.depth, noYield := m.noYield }
        callers := m.frame :: m.callers
        todo := .begin } := by
  obtain ⟨shallow, below⟩ := not_too_deep depth nesting
  have fits : ¬ slot + 1 + args + 20 > m.stackLimit := by omega
  rw [enter]
  dsimp only
  rw [if_neg shallow, if_neg below, native]
  dsimp only
  rw [enterNative]
  dsimp only
  change (if slot + 1 + args + 20 > m.stackLimit then _
    else if m.hookWants 'c' = true then _ else _ : Machine) = _
  rw [if_neg fits, calls, if_neg Bool.false_ne_true]
  rfl

end

theorem begin_native (native : m.slot m.frame.func = .native f) :
    m.begin = { m with todo := .act (f.run 0 #[] (m.values m.base (m.frame.top - m.base))) } := by
  rw [begin, native]

/-- A function that ends replies to the function of the library that has called it. -/
theorem give_reply {caller : Frame} {callers : List Frame} (silent : m.hookWants 'r' = false)
    (below : m.callers = caller :: callers) (role : m.frame.role = .reply) (kind : caller.kind = .native)
    (guard : caller.guard = none) (waits : caller.next = some next) (vs : Array Value) :
    m.give vs =
      { m with
        frame := { caller with next := none }, callers, depth := m.frame.depth, noYield := m.frame.noYield
        todo := .act (next (.ok vs)) } := by
  rw [give, silent, if_neg Bool.false_ne_true, leave, below]
  dsimp only
  rw [role, deliver, unguard]
  dsimp only
  rw [guard]
  dsimp only
  rw [reply]
  dsimp only
  rw [waits, kind, guard]
  rfl

/-- A function of the library that is called with one argument above the frame, at its beginning. -/
def called (m : Machine) (f : Native) (v : Value) (stack : Array Value) : Machine :=
  { m with
    stack, depth := m.depth + 1, noYield := m.noYield + 1
    frame :=
      { kind := .native, func := m.frame.top, dest := m.frame.top, top := m.frame.top + 2, wanted := none
        role := .reply, depth := m.depth, noYield := m.noYield }
    callers := m.frame :: m.callers
    todo := .act (f.run 0 #[] #[v]) }

theorem Fit.called (fit : Fit (n + 1) m) : Fit n (m.called f v stack) :=
  ⟨by have := fit.depth; simp only [Machine.called]; omega,
    by have := fit.room; change m.frame.top + 2 + 2 * n + 20 ≤ m.stackLimit; omega,
    fit.calls, fit.returns, rfl, rfl⟩

theorem extract_one {i : Nat} (here : stack[i]? = some v) : stack.extract i (i + 1) = #[v] := by
  obtain ⟨inside, rfl⟩ := Array.getElem?_eq_some_iff.mp here
  rw [← Array.toList_inj, Array.toList_extract, List.extract_eq_take_drop, Nat.add_sub_cancel_left,
    List.drop_eq_getElem_cons inside]
  rfl

/-- A function that is called with one argument is entered. -/
theorem reaches_called (fit : Fit (n + 1) m) (rest : ∀ stack, Reaches disk P l (m.called f v stack)) :
    Reaches disk P l (m.callAbove m.frame.top (.native f) #[v] none .reply .fixed) := by
  obtain ⟨stack, here, above, calls⟩ := m.callAbove_eq m.frame.top (.native f) #[v] none .reply .fixed
  rw [show (#[v] : Array Value).size = 1 from rfl] at calls
  have depth := fit.depth
  have room := fit.room
  have native : ({ m with stack, todo := .enter m.frame.top 1 none .reply .fixed } : Machine).slot m.frame.top =
      .native f := by simp [slot, here]
  have argument : stack.extract (m.frame.top + 1) (m.frame.top + 1 + (m.frame.top + 2 - (m.frame.top + 1))) =
      #[v] := by
    rw [show m.frame.top + 2 - (m.frame.top + 1) = 1 by omega]
    exact extract_one (above 0 Nat.one_pos)
  rw [calls]
  refine .step rfl ?_
  rw [step]
  dsimp only
  rw [enter_native native (by dsimp only; omega) (by change m.frame.top + 2 + 20 ≤ m.stackLimit; omega)
    fit.calls]
  refine .step rfl ?_
  rw [step]
  dsimp only
  rw [begin_native (f := f) (by simp [slot, nested, here])]
  have := rest stack
  rw [called, ← argument] at this
  exact this

/-- The results of a called function are the reply its caller waits for. -/
theorem reaches_returned (fit : Fit n m) (waits : m.frame.next = some next)
    (like : Like (m.called f v stack) m') (todo : m'.todo = .act F) (done : F m'.heap = .done vs h)
    (rest : ∀ stack, Reaches disk P l
      { m with heap := h, stack, frame := { m.frame with next := none }, todo := .act (next (.ok vs)) }) :
    Reaches disk P l m' := by
  refine .step (by simp [isResting, todo]) ?_
  rw [step_done todo done]
  obtain ⟨_, stack', waiting, _, rfl⟩ := like
  refine .step rfl ?_
  let ended : Machine := { m.called f v stack with
    heap := h, stack := stack', frame := { (m.called f v stack).frame with next := waiting }
    todo := .give vs }
  change Reaches disk P l (ended.give vs)
  have silent : ended.hookWants 'r' = false := fit.returns
  rw [give_reply silent rfl rfl fit.kind fit.guard waits]
  exact rest stack'

theorem reaches_ask {r : Request} (todo : m.todo = .act F) (asks : F m.heap = .ask r h next)
    (rest : Reaches disk P l (serve (m.moment h m.stack (some next) .leave) r)) : Reaches disk P l m := by
  refine .step (by simp [isResting, todo]) ?_
  rw [step_ask todo asks]
  exact rest

/-- What a function comes to as a tree, it comes to in the machine: the paths are looked up, and the
machine is at the end of the tree, in the frame of the function unless that has failed. -/
theorem reaches_of_leads {α : Type} {P : Action α → Prop} {R : Machine → Prop} {a : Action α}
    {l' : List String} (leads : Leads disk n a l P) (values : α = Array Value) (fit : Fit n m)
    (todo : m.todo = .act F) (tree : F m.heap = cast (congrArg Action values) a)
    (rest : ∀ m' F', m'.todo = .act F' → P (cast (congrArg Action values.symm) (F' m'.heap)) →
      (Like m m' ∨ ∃ e h', F' m'.heap = .fail e h') → Reaches disk R l' m') :
    Reaches disk R (l ++ l') m := by
  -- a called function has a tree of its own, so the type of the values is one more index
  induction leads generalizing m F l' with
  | here holds =>
    subst values
    exact rest m F todo (by rw [tree]; exact holds) (.inl (.refl m))
  | @look α n p h next l P _ ih =>
    subst values
    refine reaches_ask todo tree (.look rfl fun w same => ?_)
    have like := Like.moment m { h with world := w } m.stack none (.act (next (.ok #[])))
    exact ih w same rfl (fit.like like) rfl rfl fun m' F' todo' holds at_end =>
      rest m' F' todo' holds (at_end.imp_left like.trans)
  | @openGate α n name h next l P _ ih =>
    subst values
    refine reaches_ask todo tree (.openGate rfl fun w => ?_)
    have like := Like.moment m { h with world := w } m.stack none (.act (next (.ok #[])))
    exact ih w rfl (fit.like like) rfl rfl fun m' F' todo' holds at_end =>
      rest m' F' todo' holds (at_end.imp_left like.trans)
  | @awaitGate α n name h next l P _ ih =>
    subst values
    refine reaches_ask todo tree (.awaitGate rfl fun w => ?_)
    have like := Like.moment m { h with world := w } m.stack none (.act (next (.ok #[])))
    exact ih w rfl (fit.like like) rfl rfl fun m' F' todo' holds at_end =>
      rest m' F' todo' holds (at_end.imp_left like.trans)
  | @call α n f v h next l₁ l₂ P Q E inner _ broken ihInner ihRest =>
    subst values
    have asks := Like.moment m h m.stack (some next) .leave
    rw [List.append_assoc]
    refine reaches_ask todo tree (reaches_called (fit.like asks) fun stack => ?_)
    refine ihInner rfl (fit.like asks).called rfl rfl fun m' F' todo' ends at_end => ?_
    change Outcome Q E (F' m'.heap) at ends
    cases result : F' m'.heap with
    | done vs h' =>
      rw [result] at ends at_end
      have like := at_end.resolve_right (by rintro ⟨_, _, no⟩; cases no)
      refine reaches_returned (fit.like asks) rfl like todo' result fun stack' => ?_
      have back := Like.moment m h' stack' none (.act (next (.ok vs)))
      exact ihRest vs h' ends rfl (fit.like back) rfl rfl fun m'' F'' todo'' holds at_end' =>
        rest m'' F'' todo'' holds (at_end'.imp_left back.trans)
    | fail e h' =>
      rw [result] at ends
      obtain ⟨rfl, failed⟩ := broken e h' ends
      exact rest m' F' todo' (by rw [result]; exact failed) (.inr ⟨e, h', result⟩)
    | ask =>
      rw [result] at ends
      exact ends.elim

end Machine
end ScriptHost.Script
