import ScriptHost.Proofs.Script.Chains

/-!
# Tables of named values

A table whose keys are strings keeps the value of every name, whatever the hash of a
string is: looking a name up finds what was stored last. A table in which no node is
free is built anew, with room for what is in it and for one pair more.

* `Named`: such a table, its chains sound and its free nodes where they are looked for.
* `Named.set`: storing a value, or taking one away, keeps this and changes one name.
* `Named.get_set_self`, `Named.get_set_of_ne`: what is read afterwards.
-/
namespace ScriptHost.Script.Table

open Function

/-- The nodes of a vector by their index, unused ones behind its end. -/
def nodeAt (ns : Array Node) (i : Nat) : Node := ns[i]?.getD {}

/-- The nodes of a table. -/
abbrev node (t : Table) : Nat → Node := nodeAt t.nodes

theorem nodeAt_set {ns : Array Node} {i : Nat} (inside : i < ns.size) (x : Node) :
    nodeAt (ns.setIfInBounds i x) = update (nodeAt ns) i x := by
  funext j
  rw [nodeAt, Array.getElem?_setIfInBounds, update_apply]
  by_cases h : j = i
  · rw [if_pos h.symm, if_pos inside, if_pos h]
    rfl
  · rw [if_neg (Ne.symm h), if_neg h]
    rfl

theorem nodeAt_modify {ns : Array Node} {i : Nat} (inside : i < ns.size) (f : Node → Node) :
    nodeAt (ns.modify i f) = update (nodeAt ns) i (f (nodeAt ns i)) := by
  funext j
  rw [nodeAt, Array.getElem?_modify, update_apply]
  by_cases h : j = i
  · subst h
    rw [if_pos rfl, if_pos rfl, nodeAt, Array.getElem?_eq_getElem inside]
    rfl
  · rw [if_neg (Ne.symm h), if_neg h]
    rfl

theorem nodeAt_of_size_le {ns : Array Node} {i : Nat} (outside : ns.size ≤ i) : nodeAt ns i = {} := by
  rw [nodeAt, Array.getElem?_eq_none outside]
  rfl

theorem nodeAt_of_lt {ns : Array Node} {i : Nat} (inside : i < ns.size) : nodeAt ns i = ns[i] := by
  rw [nodeAt, Array.getElem?_eq_getElem inside, Option.getD_some]

theorem inside_of_used {ns : Array Node} {i : Nat} (used : ¬ Unused (nodeAt ns) i) : i < ns.size := by
  by_contra outside
  rw [Unused, nodeAt_of_size_le (Nat.le_of_not_lt outside)] at used
  exact used rfl

theorem str_ne_nil (s : Bytes) : Value.str s ≠ .nil := by
  intro h
  cases h

theorem rawEq_str {k : Value} {s : Bytes} : k.rawEq (.str s) = true ↔ k = .str s := by
  cases k with
  | str s' =>
    change (s' == s) = true ↔ _
    rw [beq_iff_eq, Value.str.injEq]
  | _ => exact ⟨nofun, nofun⟩

/-! ## Walking along a chain -/

/-- A node is reached in so many steps. -/
inductive Steps (g : Nat → Node) (j : Nat) : Nat → Nat → Prop
  | arrived : Steps g j 0 j
  | step {d i i' : Nat} : Follows g i i' → Steps g j d i' → Steps g j (d + 1) i

variable {home : Value → Nat} {g : Nat → Node} {ns : Array Node} {t t' : Table} {s : Bytes} {v : Value}
  {i j d fuel : Nat}

/-- A node with a name is in use. -/
theorem used_of_str (here : (g j).key = .str s) : ¬ Unused g j := fun unused =>
  str_ne_nil s (here.symm.trans unused)

theorem Rekeyed.strings {g' : Nat → Node} (r : Rekeyed g g' j (.str s))
    (strings : ∀ i, ¬ Unused g i → ∃ s, (g i).key = .str s) (i : Nat) (used : ¬ Unused g' i) :
    ∃ s, (g' i).key = .str s := by
  rw [r.unused (str_ne_nil s)] at used
  rw [r]
  split_ifs
  · exact ⟨s, rfl⟩
  · exact strings i (by tauto)

theorem exists_steps (r : Relation.ReflTransGen (Follows g) i j) : ∃ d, Steps g j d i := by
  induction r using Relation.ReflTransGen.head_induction_on with
  | refl => exact ⟨0, .arrived⟩
  | head first _ ih =>
    obtain ⟨d, rest⟩ := ih
    exact ⟨d + 1, .step first rest⟩

theorem Chained.used_of_follows (c : Chained home g) (h : Follows g i j) : ¬ Unused g i := by
  intro unused
  rw [Follows, (c.blank i unused).2] at h
  cases h

/-- So many steps, and no fewer. -/
def Distance (g : Nat → Node) (j d i : Nat) : Prop := Steps g j d i ∧ ∀ d', Steps g j d' i → d ≤ d'

/-- On a shortest way every distance occurs. -/
theorem Chained.exists_distance (c : Chained home g) (used : ¬ Unused g j) (far : Distance g j d i) {m : Nat}
    (hm : m ≤ d) : ∃ i', ¬ Unused g i' ∧ Distance g j m i' := by
  induction d generalizing i with
  | zero =>
    obtain ⟨steps, least⟩ := far
    obtain rfl : m = 0 := Nat.le_zero.mp hm
    cases steps
    exact ⟨j, used, .arrived, least⟩
  | succ d ih =>
    by_cases all : m = d + 1
    · subst all
      cases far.1 with
      | step first _ => exact ⟨i, c.used_of_follows first, far⟩
    · cases hd : far.1 with
      | @step _ _ i' first rest =>
        have least : ∀ k, Steps g j k i' → d ≤ k := fun k hk =>
          Nat.le_of_succ_le_succ (far.2 _ (.step first hk))
        exact ih ⟨rest, least⟩ (by omega)

/-- A chain is no longer than the node vector. -/
theorem Chained.exists_short (c : Chained home (nodeAt ns)) (used : ¬ Unused (nodeAt ns) j)
    (r : Relation.ReflTransGen (Follows (nodeAt ns)) i j) :
    ∃ d < ns.size, Steps (nodeAt ns) j d i := by
  classical
  have some_way := exists_steps r
  have far : Distance (nodeAt ns) j (Nat.find some_way) i :=
    ⟨Nat.find_spec some_way, fun m hm => Nat.find_min' some_way hm⟩
  refine ⟨_, ?_, far.1⟩
  have each (m : Nat) : ∃ i', m ≤ Nat.find some_way →
      i' < ns.size ∧ Distance (nodeAt ns) j m i' := by
    by_cases hm : m ≤ Nat.find some_way
    · obtain ⟨i', used', far'⟩ := c.exists_distance used far hm
      exact ⟨i', fun _ => ⟨inside_of_used used', far'⟩⟩
    · exact ⟨0, fun h => absurd h hm⟩
  choose place at_place using each
  -- nodes at different distances are different
  have few := Finset.card_le_card_of_injOn (s := Finset.range (Nat.find some_way + 1))
    (t := Finset.range ns.size) place
    (fun m hm => by
      have hm := Finset.mem_range.mp (Finset.mem_coe.mp hm)
      exact Finset.mem_coe.mpr (Finset.mem_range.mpr (at_place m (by omega)).1))
    (fun m hm m' hm' same => by
      have hm := Finset.mem_range.mp (Finset.mem_coe.mp hm)
      have hm' := Finset.mem_range.mp (Finset.mem_coe.mp hm')
      have far := (at_place m (by omega)).2
      have far' := (at_place m' (by omega)).2
      rw [← same] at far'
      exact Nat.le_antisymm (far.2 _ far'.1) (far'.2 _ far.1))
  rw [Finset.card_range, Finset.card_range] at few
  exact few

/-- A search that finds a node finds one with the key. -/
theorem key_of_findFrom (h : findFrom ns (.str s) fuel d = some j) : (nodeAt ns j).key = .str s := by
  induction fuel generalizing d with
  | zero => cases h
  | succ fuel ih =>
    cases d with
    | zero => cases h
    | succ i =>
      rw [findFrom] at h
      cases here : ns[i]? with
      | none =>
        rw [here] at h
        cases h
      | some x =>
        rw [here] at h
        dsimp only at h
        split_ifs at h with same
        · cases h
          rw [nodeAt, here]
          exact rawEq_str.mp same
        · exact ih h

/-- A search that walks far enough finds the key. -/
theorem findFrom_of_steps (c : Chained home (nodeAt ns)) (here : (nodeAt ns j).key = .str s)
    (way : Steps (nodeAt ns) j d i) (enough : d < fuel) : findFrom ns (.str s) fuel (i + 1) = some j := by
  have used : ¬ Unused (nodeAt ns) j := used_of_str here
  induction way generalizing fuel with
  | arrived =>
    obtain ⟨fuel, rfl⟩ : ∃ k, fuel = k + 1 := ⟨fuel - 1, by omega⟩
    have inside := inside_of_used used
    rw [findFrom, Array.getElem?_eq_getElem inside]
    dsimp only
    rw [if_pos (rawEq_str.mpr (nodeAt_of_lt inside ▸ here))]
  | @step d i i' first _ ih =>
    obtain ⟨fuel, rfl⟩ : ∃ k, fuel = k + 1 := ⟨fuel - 1, by omega⟩
    have used_i := c.used_of_follows first
    have inside := inside_of_used used_i
    rw [findFrom, Array.getElem?_eq_getElem inside]
    dsimp only
    rw [← nodeAt_of_lt inside]
    split_ifs with same
    · rw [c.once used_i ((rawEq_str.mp same).trans here.symm)]
    · rw [show (nodeAt ns i).next = i' + 1 from first]
      exact ih (by omega)

/-- The search for what leads to a node finds it. -/
theorem predecessor_of_steps (way : Steps (nodeAt ns) j d i) (away : i ≠ j) (enough : d ≤ fuel) :
    Follows (nodeAt ns) (predecessor ns j fuel i) j ∧ predecessor ns j fuel i ≠ j := by
  induction way generalizing fuel with
  | arrived => exact absurd rfl away
  | @step d i i' first rest ih =>
    obtain ⟨fuel, rfl⟩ : ∃ k, fuel = k + 1 := ⟨fuel - 1, by omega⟩
    have next : (ns[i]?.getD {}).next = i' + 1 := first
    rw [predecessor, next]
    by_cases there : i' = j
    · rw [if_pos (.inl (by rw [there]))]
      exact ⟨there ▸ first, away⟩
    · rw [if_neg (by omega)]
      exact ih there (by omega)

/-! ## Free nodes -/

theorem freeBelow_some {f : Nat} (h : freeBelow ns d = some f) :
    f < d ∧ Unused (nodeAt ns) f ∧ ∀ i, f < i → i < d → ¬ Unused (nodeAt ns) i := by
  induction d with
  | zero => cases h
  | succ d ih =>
    rw [freeBelow] at h
    split_ifs at h with here
    · cases h
      refine ⟨by omega, ?_, fun i above below => by omega⟩
      rw [Unused, nodeAt]
      revert here
      cases (ns[f]?.getD {}).key <;> simp [Value.isNil]
    · obtain ⟨below, unused, rest⟩ := ih h
      refine ⟨by omega, unused, fun i above hi => ?_⟩
      by_cases last : i = d
      · rw [last, Unused, nodeAt]
        intro h
        rw [h] at here
        exact here rfl
      · exact rest i above (by omega)

theorem freeBelow_none (h : freeBelow ns d = none) : ∀ i < d, ¬ Unused (nodeAt ns) i := by
  induction d with
  | zero => exact nofun
  | succ d ih =>
    rw [freeBelow] at h
    split_ifs at h with here
    intro i hi
    by_cases last : i = d
    · rw [last, Unused, nodeAt]
      intro h
      rw [h] at here
      exact here rfl
    · exact ih h i (by omega)

/-! ## Storing a pair in the node vector -/

/-- A table whose keys are strings. -/
structure Named (t : Table) : Prop where
  strings : ∀ i, ¬ Unused t.node i → ∃ s, (t.node i).key = .str s
  chained : Chained (mainPosition t.nodes.size) t.node
  /-- Unused nodes are found below this index. -/
  free : ∀ i < t.nodes.size, Unused t.node i → i < t.lastFree
  inside : t.lastFree ≤ t.nodes.size
  noArray : t.array = #[]

/-- A pair was stored in the node vector as it is; at most one more node is in use. -/
structure Stored (t t' : Table) (k v : Value) : Prop where
  named : t'.Named
  sets : Sets t.node t'.node k v
  size : t'.nodes.size = t.nodes.size
  metatable : t'.metatable = t.metatable
  atMostOne : ∃ x, ∀ i, Unused t.node i → i = x ∨ Unused t'.node i

/-- The name is not in the table. -/
def Fresh (t : Table) (s : Bytes) : Prop := ∀ i, (t.node i).key ≠ .str s

theorem home_lt (some_nodes : 0 < ns.size) : mainPosition ns.size (.str s) < ns.size :=
  Nat.mod_lt _ some_nodes

/-- Nil is what no other value is. -/
theorem eq_of_values {x y : Value} (same : ∀ w, w ≠ .nil → (x = w ↔ y = w)) : x = y := by
  by_cases h : x = .nil
  · by_contra other
    have some_value : y ≠ .nil := fun none => other (h.trans none.symm)
    exact other ((same y some_value).mpr rfl)
  · exact ((same x h).mp rfl).symm

theorem get_str (t : Table) (s : Bytes) :
    t.get (.str s) = ((t.find? (.str s)).map fun j => (t.node j).val).getD .nil := by
  have normal : normalKey (.str s) = .str s := rfl
  rw [get, normal]
  dsimp only
  cases t.find? (.str s) <;> rfl

theorem eq_nil_of_isNil (h : v.isNil = true) : v = .nil := by
  cases v with
  | nil => rfl
  | _ => cases h

namespace Named

theorem empty : Named {} where
  strings _ used := absurd rfl used
  chained := Chained.empty
  free := nofun
  inside := Nat.le_refl 0
  noArray := rfl

section
variable (n : t.Named)
include n

theorem find?_of_key (here : (t.node j).key = .str s) : t.find? (.str s) = some j := by
  have used : ¬ Unused t.node j := used_of_str here
  have some_nodes : ¬ t.nodes.isEmpty = true := by
    have inside := inside_of_used used
    rw [Array.isEmpty_iff]
    intro none
    rw [none] at inside
    cases inside
  have reached := n.chained.reached j used
  rw [here] at reached
  obtain ⟨d, few, way⟩ := n.chained.exists_short used reached
  rw [find?, if_neg some_nodes]
  exact findFrom_of_steps n.chained here way (by omega)

omit n in
theorem key_of_find? (found : t.find? (.str s) = some j) : (t.node j).key = .str s := by
  rw [find?] at found
  split_ifs at found
  exact key_of_findFrom found

theorem fresh_of_find? (absent : t.find? (.str s) = none) : t.Fresh s := by
  intro j here
  rw [n.find?_of_key here] at absent
  cases absent

/-- What is left to be shown of a way to store a pair. -/
theorem stored {k : Value} {g : Nat → Node} (node : t'.node = g)
    (size : t'.nodes.size = t.nodes.size) (array : t'.array = t.array)
    (metatable : t'.metatable = t.metatable) (chained : Chained (mainPosition t.nodes.size) g)
    (sets : Sets t.node g k v) (strings : ∀ i, ¬ Unused g i → ∃ s, (g i).key = .str s)
    (less : ∀ i, Unused g i → Unused t.node i)
    (free : ∀ i < t.nodes.size, Unused g i → i < t'.lastFree) (inside : t'.lastFree ≤ t.nodes.size)
    (atMostOne : ∃ x, ∀ i, Unused t.node i → i = x ∨ Unused g i) : Stored t t' k v := by
  subst node
  refine ⟨⟨strings, ?_, ?_, ?_, array.trans n.noArray⟩, sets, size, metatable, atMostOne⟩
  · rw [size]
    exact chained
  · rw [size]
    exact free
  · rw [size]
    exact inside

/-- A name that is there gets a new value. -/
theorem write (found : t.find? (.str s) = some j) (v : Value) :
    Stored t { t with nodes := t.nodes.modify j fun x => { x with val := v } } (.str s) v := by
  have here := key_of_find? found
  have used : ¬ Unused t.node j := used_of_str here
  have same (i : Nat) := unused_written (g := t.node) (p := j) (v := v) i
  refine n.stored (g := written t.node j v) (nodeAt_modify (inside_of_used used) _) Array.size_modify rfl
    rfl (n.chained.write used v) (here ▸ n.chained.sets_written used v) (fun i used => ?_)
    (fun i unused => (same i).mp unused) (fun i hi unused => n.free i hi ((same i).mp unused)) n.inside
    ⟨j, fun i unused => .inr ((same i).mpr unused)⟩
  rw [same] at used
  rw [key_written]
  exact n.strings i used

/-- A new name takes its main position. -/
theorem takeHome {mp : Nat} (fresh : t.Fresh s) (mp_inside : mp < t.nodes.size)
    (at_home : mainPosition t.nodes.size (.str s) = mp) (vacant : (t.node mp).val = .nil) (v : Value) :
    Stored t { t with nodes := t.nodes.setIfInBounds mp ⟨.str s, v, (t.node mp).next⟩ } (.str s) v := by
  have named := str_ne_nil s
  have key : Rekeyed t.node (occupied t.node mp (.str s) v) mp (.str s) := rekeyed_occupied
  have unused := key.unused named
  exact n.stored (nodeAt_set mp_inside _) Array.size_setIfInBounds rfl rfl
    (n.chained.occupy named fresh at_home v) (sets_occupied fresh vacant v) (key.strings n.strings)
    (fun i h => ((unused i).mp h).2) (fun i hi h => n.free i hi ((unused i).mp h).2) n.inside
    ⟨mp, fun i h => (em (i = mp)).imp_right fun other => (unused i).mpr ⟨other, h⟩⟩

/-- A new name takes a free node behind the one at its main position. -/
theorem joinChain {mp f : Nat} (fresh : t.Fresh s) (mp_inside : mp < t.nodes.size)
    (at_home : mainPosition t.nodes.size (.str s) = mp) (used_mp : ¬ Unused t.node mp)
    (owner : mainPosition t.nodes.size (t.node mp).key = mp)
    (found : freeBelow t.nodes t.lastFree = some f) (v : Value) :
    Stored t { t with
      nodes := (t.nodes.setIfInBounds f ⟨.str s, v, (t.node mp).next⟩).setIfInBounds mp
        { t.node mp with next := f + 1 }
      lastFree := f } (.str s) v := by
  obtain ⟨below, free, above⟩ := freeBelow_some found
  have f_inside : f < t.nodes.size := Nat.lt_of_lt_of_le below n.inside
  have apart : f ≠ mp := fun h => used_mp (h ▸ free)
  have named := str_ne_nil s
  have key : Rekeyed t.node (appended t.node mp f (.str s) v) f (.str s) := rekeyed_appended apart
  have unused := key.unused named
  refine n.stored (g := appended t.node mp f (.str s) v) ?_ ?_ rfl rfl
    (n.chained.append named fresh at_home free used_mp owner v)
    (sets_appended fresh apart (n.chained.blank f free).1 v) (key.strings n.strings)
    (fun i h => ((unused i).mp h).2) (fun i hi h => ?_) (Nat.le_of_lt f_inside)
    ⟨f, fun i h => (em (i = f)).imp_right fun other => (unused i).mpr ⟨other, h⟩⟩
  · change nodeAt _ = _
    rw [nodeAt_set (by simpa using mp_inside), nodeAt_set f_inside]
    rfl
  · simp
  · obtain ⟨other, h⟩ := (unused i).mp h
    by_contra not_below
    exact above i (by dsimp only at not_below; omega) (n.free i hi h) h

/-- A new name takes its main position from a pair that is not at home and moves to a free node. -/
theorem pushAside {mp f : Nat} (fresh : t.Fresh s) (mp_inside : mp < t.nodes.size)
    (at_home : mainPosition t.nodes.size (.str s) = mp) (used_mp : ¬ Unused t.node mp)
    (stranger : mainPosition t.nodes.size (t.node mp).key ≠ mp)
    (found : freeBelow t.nodes t.lastFree = some f) (v : Value) :
    Stored t { t with
      nodes := ((t.nodes.modify
        (predecessor t.nodes mp (t.nodes.size + 1) (mainPosition t.nodes.size (t.node mp).key))
        fun x => { x with next := f + 1 }).setIfInBounds f (t.node mp)).setIfInBounds mp ⟨.str s, v, 0⟩
      lastFree := f } (.str s) v := by
  obtain ⟨below, free, above⟩ := freeBelow_some found
  have f_inside : f < t.nodes.size := Nat.lt_of_lt_of_le below n.inside
  have apart : f ≠ mp := fun h => used_mp (h ▸ free)
  obtain ⟨d, few, way⟩ := n.chained.exists_short used_mp (n.chained.reached mp used_mp)
  have enough : d ≤ t.nodes.size + 1 := by omega
  obtain ⟨led, other⟩ := predecessor_of_steps way stranger enough
  generalize predecessor t.nodes mp (t.nodes.size + 1) (mainPosition t.nodes.size (t.node mp).key) = p
    at led other ⊢
  have p_inside := inside_of_used (n.chained.used_of_follows led)
  have named := str_ne_nil s
  have unused (i : Nat) := unused_displaced (g := t.node) (f := f) (p := p) (v := v) used_mp named i
  refine n.stored (g := displaced t.node mp f p (.str s) v) ?_ ?_ rfl rfl
    (n.chained.displace named fresh at_home free used_mp stranger led other v)
    (sets_displaced fresh apart (n.chained.blank f free).1 v) (fun i used => ?_)
    (fun i h => ((unused i).mp h).2) (fun i hi h => ?_) (Nat.le_of_lt f_inside)
    ⟨f, fun i h => (em (i = f)).imp_right fun other => (unused i).mpr ⟨other, h⟩⟩
  · change nodeAt _ = _
    rw [nodeAt_set (by simpa using mp_inside), nodeAt_set (by simpa using f_inside), nodeAt_modify p_inside]
    rfl
  · simp
  · rw [unused] at used
    rw [key_displaced]
    split_ifs
    · exact ⟨s, rfl⟩
    · exact n.strings mp used_mp
    · exact n.strings i (by tauto)
  · obtain ⟨other, h⟩ := (unused i).mp h
    by_contra not_below
    exact above i (by dsimp only at not_below; omega) (n.free i hi h) h

/-- A new name finds a node if one is free. -/
theorem place (fresh : t.Fresh s) (v : Value) :
    (t.place? (.str s) v = none ∧ ∀ i < t.nodes.size, ¬ Unused t.node i) ∨
      ∃ t', t.place? (.str s) v = some t' ∧ Stored t t' (.str s) v := by
  rw [place?]
  by_cases empty : t.nodes.isEmpty = true
  · rw [if_pos empty]
    rw [Array.isEmpty_iff] at empty
    refine .inl ⟨rfl, fun i hi => ?_⟩
    rw [empty] at hi
    cases hi
  rw [if_neg empty]
  have some_nodes : 0 < t.nodes.size := by
    rw [Array.isEmpty_iff] at empty
    exact Array.size_pos_iff.mpr empty
  have mp_inside := home_lt (s := s) some_nodes
  by_cases vacant : (t.node (mainPosition t.nodes.size (.str s))).val.isNil = true
  · exact .inr ⟨_, if_pos vacant, n.takeHome fresh mp_inside rfl (eq_nil_of_isNil vacant) v⟩
  have used_mp : ¬ Unused t.node (mainPosition t.nodes.size (.str s)) := by
    intro unused
    rw [(n.chained.blank _ unused).1] at vacant
    exact vacant rfl
  dsimp only
  rw [show (t.nodes[mainPosition t.nodes.size (.str s)]?.getD {}) =
    t.node (mainPosition t.nodes.size (.str s)) from rfl, if_neg vacant]
  cases found : freeBelow t.nodes t.lastFree with
  | none =>
    refine .inl ⟨rfl, fun i hi unused => ?_⟩
    exact freeBelow_none found i (n.free i hi unused) unused
  | some f =>
    dsimp only
    refine .inr ?_
    split_ifs with owner
    · exact ⟨_, rfl, n.joinChain fresh mp_inside rfl used_mp owner found v⟩
    · exact ⟨_, rfl, n.pushAside fresh mp_inside rfl used_mp owner found v⟩

end

end Named

/-! ## Building a table anew -/

instance : DecidablePred (Unused g) := fun i =>
  decidable_of_iff ((g i).key.isNil = true) ⟨eq_nil_of_isNil, fun h => by rw [h]; rfl⟩

/-- How many nodes are in use. -/
def crowd (t : Table) : Nat := ((Finset.range t.nodes.size).filter fun i => ¬ Unused t.node i).card

theorem Stored.crowd_le {k : Value} (h : Stored t t' k v) : t'.crowd ≤ t.crowd + 1 := by
  obtain ⟨x, one⟩ := h.atMostOne
  refine Nat.le_trans (Finset.card_le_card fun i hi => ?_) (Finset.card_insert_le x _)
  rw [Finset.mem_filter, Finset.mem_range, h.size] at hi
  rw [Finset.mem_insert, Finset.mem_filter, Finset.mem_range]
  by_cases unused : Unused t.node i
  · exact .inl ((one i unused).resolve_right hi.2)
  · exact .inr ⟨hi.1, unused⟩

theorem exists_unused (room : t.crowd < t.nodes.size) : ∃ i < t.nodes.size, Unused t.node i := by
  by_contra none
  push Not at none
  rw [crowd, Finset.filter_true_of_mem fun i hi => none i (Finset.mem_range.mp hi),
    Finset.card_range] at room
  exact lt_irrefl _ room

theorem Named.put (n : t.Named) (room : t.crowd < t.nodes.size) (s : Bytes) (v : Value) :
    Stored t (t.put (.str s) v) (.str s) v := by
  change Stored t (Table.put.inNodes (.str s) v t) _ _
  rw [Table.put.inNodes]
  cases found : t.find? (.str s) with
  | some j => exact n.write found v
  | none =>
    obtain ⟨i, hi, unused⟩ := exists_unused room
    rcases n.place (n.fresh_of_find? found) v with ⟨_, full⟩ | ⟨t', placed, stored⟩
    · exact absurd unused (full i hi)
    · dsimp only
      rw [placed]
      exact stored

/-- Puts the pairs of some nodes into a table. -/
def restore (l : List Node) (t : Table) : Table :=
  l.foldl (fun fresh n => if n.val.isNil then fresh else fresh.put n.key n.val) t

/-- A node holds a value. -/
def isLive (x : Node) : Bool := !x.val.isNil

theorem isLive_iff {x : Node} : isLive x = true ↔ x.val ≠ .nil := by
  rw [isLive]
  cases x.val <;> simp [Value.isNil]

theorem restore_of_dead {x : Node} (dead : isLive x = false) (l : List Node) :
    t.restore (x :: l) = t.restore l := by
  have nothing : x.val.isNil = true := by simpa [isLive] using dead
  rw [restore, List.foldl_cons, if_pos nothing]
  rfl

theorem restore_of_live {x : Node} (live : isLive x = true) (l : List Node) :
    t.restore (x :: l) = (t.put x.key x.val).restore l := by
  have some_value : ¬ x.val.isNil = true := by simpa [isLive] using live
  rw [restore, List.foldl_cons, if_neg some_value]
  rfl

/-- Pairs with different names fill a table that has room for them. -/
theorem Named.restore {l : List Node} (n : t.Named)
    (strings : ∀ x ∈ l, isLive x → ∃ s, x.key = .str s)
    (once : l.Pairwise fun x y => isLive x → isLive y → x.key ≠ y.key)
    (room : t.crowd + l.countP isLive ≤ t.nodes.size) :
    (t.restore l).Named ∧ (t.restore l).crowd ≤ t.crowd + l.countP isLive ∧
      (t.restore l).nodes.size = t.nodes.size ∧ (t.restore l).metatable = t.metatable ∧
      ∀ k v, Pair (t.restore l).node k v ↔ (∃ x ∈ l, isLive x ∧ x.key = k ∧ x.val = v) ∨
        ((∀ x ∈ l, isLive x → x.key ≠ k) ∧ Pair t.node k v) := by
  induction l generalizing t with
  | nil =>
    refine ⟨n, Nat.le_refl _, rfl, rfl, fun k v => ?_⟩
    simp [Table.restore]
  | cons x l ih =>
    obtain ⟨apart, once⟩ := List.pairwise_cons.mp once
    have strings' := fun y hy => strings y (List.mem_cons_of_mem x hy)
    cases live : isLive x with
    | false =>
      rw [List.countP_cons_of_neg (by simp [live])] at room ⊢
      obtain ⟨named, few, size, metatable, pairs⟩ := ih n strings' once room
      rw [restore_of_dead live]
      refine ⟨named, few, size, metatable, fun k v => ?_⟩
      rw [pairs]
      simp [live]
    | true =>
      obtain ⟨s, hs⟩ := strings x List.mem_cons_self live
      have some_value := isLive_iff.mp live
      rw [List.countP_cons_of_pos live] at room ⊢
      have stored := n.put (by omega) s x.val
      have less := stored.crowd_le
      obtain ⟨named, few, size, metatable, pairs⟩ :=
        ih stored.named strings' once (by rw [stored.size]; omega)
      rw [restore_of_live live, hs]
      refine ⟨named, by omega, size.trans stored.size, metatable.trans stored.metatable, fun k v => ?_⟩
      rw [pairs, stored.sets, ← hs]
      -- the new pair is the first of the list, and no other node of the list has its name
      constructor
      · rintro (⟨y, hy, found⟩ | ⟨others, ⟨rfl, rfl, _⟩ | ⟨other, before⟩⟩)
        · exact .inl ⟨y, List.mem_cons_of_mem x hy, found⟩
        · exact .inl ⟨x, List.mem_cons_self, live, rfl, rfl⟩
        · exact .inr ⟨List.forall_mem_cons.mpr ⟨fun _ => other.symm, others⟩, before⟩
      · rintro (⟨y, hy, live_y, rfl, rfl⟩ | ⟨others, before⟩)
        · rcases List.mem_cons.mp hy with rfl | hy
          · exact .inr ⟨fun z hz live_z => (apart z hz live live_z).symm, .inl ⟨rfl, rfl, some_value⟩⟩
          · exact .inl ⟨y, hy, live_y, rfl, rfl⟩
        · obtain ⟨other, others⟩ := List.forall_mem_cons.mp others
          exact .inr ⟨others, .inr ⟨(other live).symm, before⟩⟩

theorem le_two_pow_ceilLog2 (d : Nat) : d ≤ 2 ^ ceilLog2 d := by
  rw [ceilLog2]
  split_ifs with small
  · simpa using small
  · have := Nat.lt_log2_self (n := d - 1)
    omega

/-- A table with so many nodes, of which none is in use. -/
def vacant (size : Nat) (metatable : Option Nat) : Table :=
  { nodes := Array.replicate size {}, lastFree := size, metatable }

theorem unused_vacant (size : Nat) (metatable : Option Nat) : (vacant size metatable).node = fun _ => {} := by
  funext i
  change nodeAt (Array.replicate size {}) i = _
  rw [nodeAt, Array.getElem?_replicate]
  split_ifs <;> rfl

theorem Named.vacant (size : Nat) (metatable : Option Nat) : (vacant size metatable).Named := by
  have node := unused_vacant size metatable
  have nodes : (Table.vacant size metatable).nodes.size = size := Array.size_replicate
  refine ⟨fun i used => ?_, ?_, fun i hi _ => nodes ▸ hi, ?_, rfl⟩
  · exact absurd (congrArg Node.key (congrFun node i)) used
  · rw [node]
    exact Chained.empty
  · rw [nodes]
    exact Nat.le_refl size

theorem crowd_vacant (size : Nat) (metatable : Option Nat) : (vacant size metatable).crowd = 0 := by
  rw [crowd, Finset.card_eq_zero, Finset.filter_eq_empty_iff]
  intro i _ used
  exact used (congrArg Node.key (congrFun (unused_vacant size metatable) i))

theorem nodeVector_succ (count : Nat) :
    nodeVector (count + 1) = Array.replicate (2 ^ ceilLog2 (count + 1)) {} := if_neg (Nat.succ_ne_zero _)

/-- One node more is counted. -/
def countStep : Array Nat × Nat → Node → Array Nat × Nat :=
  fun (counts, n) node => if node.val.isNil then (counts, n) else (countKey counts node.key, n + 1)

/-- Strings are counted, but not as integer keys. -/
theorem foldl_countStep {l : List Node} (strings : ∀ x ∈ l, isLive x → ∃ s, x.key = .str s)
    (counts : Array Nat) (d : Nat) : l.foldl countStep (counts, d) = (counts, d + l.countP isLive) := by
  induction l generalizing d with
  | nil => rfl
  | cons x l ih =>
    have strings' := fun y hy => strings y (List.mem_cons_of_mem x hy)
    rw [List.foldl_cons]
    cases live : isLive x with
    | false =>
      have dead : x.val.isNil = true := by simpa [isLive] using live
      have skipped : countStep (counts, d) x = (counts, d) := if_pos dead
      rw [skipped, ih strings', List.countP_cons_of_neg (by simp [live])]
    | true =>
      obtain ⟨s, hs⟩ := strings x List.mem_cons_self live
      have not_nil : ¬ x.val.isNil = true := by simpa [isLive] using live
      have counted : countStep (counts, d) x = (counts, d + 1) := by
        refine (if_neg not_nil).trans ?_
        rw [hs]
        rfl
      rw [counted, ih strings', List.countP_cons_of_pos live, Nat.add_right_comm, Nat.add_assoc]

/-- Without integer keys there is no array part. -/
theorem bestSize_none : bestSize (Array.replicate 29 0) 29 0 1 0 (0, 0) = (0, 0) := by decide

theorem exists_live {k : Value} :
    (∃ x ∈ t.nodes.toList, isLive x ∧ x.key = k ∧ x.val = v) ↔ Pair t.node k v := by
  constructor
  · rintro ⟨x, hx, live, rfl, rfl⟩
    obtain ⟨i, hi, rfl⟩ := List.getElem_of_mem hx
    have here : t.node i = t.nodes.toList[i] := nodeAt_of_lt hi
    exact ⟨i, congrArg Node.key here, congrArg Node.val here, isLive_iff.mp live⟩
  · rintro ⟨i, rfl, rfl, some_value⟩
    have inside : i < t.nodes.size := by
      by_contra outside
      have blank : t.node i = {} := nodeAt_of_size_le (Nat.le_of_not_lt outside)
      exact some_value (congrArg Node.val blank)
    have here : t.node i = t.nodes[i] := nodeAt_of_lt inside
    rw [here] at some_value ⊢
    exact ⟨t.nodes[i], Array.getElem_mem_toList inside, isLive_iff.mpr some_value, rfl, rfl⟩

namespace Named

section
variable (n : t.Named)
include n

theorem used_of_live {i : Nat} (live : isLive (t.node i)) : ¬ Unused t.node i :=
  fun unused => isLive_iff.mp live (n.chained.blank i unused).1

theorem strings_of_live : ∀ x ∈ t.nodes.toList, isLive x → ∃ s, x.key = .str s := by
  intro x hx live
  obtain ⟨i, hk, hv, some_value⟩ := exists_live.mp ⟨x, hx, live, rfl, rfl⟩
  rw [← hk]
  exact n.strings i (n.used_of_live (isLive_iff.mpr (hv ▸ some_value)))

theorem once_of_live :
    t.nodes.toList.Pairwise fun x y => isLive x → isLive y → x.key ≠ y.key := by
  rw [List.pairwise_iff_getElem]
  intro i j hi hj before live_i live_j same
  have at_i : t.node i = t.nodes.toList[i] := nodeAt_of_lt hi
  have at_j : t.node j = t.nodes.toList[j] := nodeAt_of_lt hj
  rw [← at_i] at live_i same
  rw [← at_j] at same
  exact absurd (n.chained.once (n.used_of_live live_i) same) (Nat.ne_of_lt before)

theorem rehash_eq (s : Bytes) : t.rehash (.str s) = t.resize 0 (t.nodes.toList.countP isLive + 1) := by
  have counted : t.nodes.foldl countStep (Array.replicate 29 0, 0) =
      (Array.replicate 29 0, 0 + t.nodes.toList.countP isLive) := by
    rw [← Array.foldl_toList]
    exact foldl_countStep n.strings_of_live _ _
  rw [rehash, n.noArray]
  change (fun x : Array Nat × Nat =>
    t.resize (bestSize x.1 29 0 1 0 (0, 0)).1 (0 + x.2 + 1 - (bestSize x.1 29 0 1 0 (0, 0)).2))
      (t.nodes.foldl countStep (Array.replicate 29 0, 0)) = _
  rw [counted]
  dsimp only
  rw [bestSize_none, Nat.zero_add, Nat.zero_add, Nat.sub_zero]

theorem resize_eq (count : Nat) : t.resize 0 (count + 1) =
    Table.restore t.nodes.toList (Table.vacant (2 ^ ceilLog2 (count + 1)) t.metatable) := by
  rw [resize, n.noArray, Table.restore, Array.foldl_toList, Table.vacant, nodeVector_succ,
    Array.size_replicate]
  rfl

/-- Built anew, the table holds the same pairs and has room for one more. -/
theorem rehash (s : Bytes) : (t.rehash (.str s)).Named ∧
    (t.rehash (.str s)).crowd < (t.rehash (.str s)).nodes.size ∧
    (t.rehash (.str s)).metatable = t.metatable ∧
    ∀ k v, Pair (t.rehash (.str s)).node k v ↔ Pair t.node k v := by
  have enough := le_two_pow_ceilLog2 (t.nodes.toList.countP isLive + 1)
  rw [n.rehash_eq, n.resize_eq]
  generalize 2 ^ ceilLog2 (t.nodes.toList.countP isLive + 1) = size at enough ⊢
  have nodes : (Table.vacant size t.metatable).nodes.size = size := Array.size_replicate
  have nobody := crowd_vacant size t.metatable
  obtain ⟨named, few, same, metatable, pairs⟩ := (Named.vacant size t.metatable).restore
    n.strings_of_live n.once_of_live (by rw [nodes, nobody]; omega)
  refine ⟨named, by omega, metatable, fun k v => ?_⟩
  have nothing : ¬ Pair (Table.vacant size t.metatable).node k v := by
    rw [unused_vacant]
    rintro ⟨_, _, rfl, some_value⟩
    exact some_value rfl
  rw [pairs, exists_live]
  exact or_iff_left fun h => nothing h.2

/-! ## Reading and writing -/

/-- Storing a value, or nil to take one away, concerns one name only. -/
theorem set (s : Bytes) (v : Value) : (t.set (.str s) v).Named ∧
    Sets t.node (t.set (.str s) v).node (.str s) v ∧ (t.set (.str s) v).metatable = t.metatable := by
  change (Table.set.inNodes v t (.str s)).Named ∧ Sets t.node (Table.set.inNodes v t (.str s)).node _ _ ∧
    (Table.set.inNodes v t (.str s)).metatable = _
  rw [Table.set.inNodes]
  cases found : t.find? (.str s) with
  | some j =>
    have stored := n.write found v
    exact ⟨stored.named, stored.sets, stored.metatable⟩
  | none =>
    have fresh := n.fresh_of_find? found
    dsimp only
    split_ifs with nothing
    · refine ⟨n, fun k' v' => ⟨fun pair => .inr ⟨?_, pair⟩, ?_⟩, rfl⟩
      · rintro rfl
        obtain ⟨i, here, _⟩ := pair
        exact fresh i here
      · rintro (⟨_, rfl, some_value⟩ | ⟨_, pair⟩)
        · exact absurd (eq_nil_of_isNil nothing) some_value
        · exact pair
    · rcases n.place fresh v with ⟨full, _⟩ | ⟨t', placed, stored⟩
      · obtain ⟨named, room, metatable, pairs⟩ := n.rehash s
        have stored := named.put room s v
        rw [full]
        refine ⟨stored.named, fun k' v' => ?_, stored.metatable.trans metatable⟩
        rw [← pairs]
        exact stored.sets k' v'
      · rw [placed]
        exact ⟨stored.named, stored.sets, stored.metatable⟩

/-- What a name is read as is what the nodes say. -/
theorem get_iff (some_value : v ≠ .nil) : t.get (.str s) = v ↔ Pair t.node (.str s) v := by
  rw [get_str]
  constructor
  · intro h
    cases found : t.find? (.str s) with
    | some j =>
      rw [found] at h
      exact ⟨j, key_of_find? found, h, some_value⟩
    | none =>
      rw [found] at h
      exact absurd h.symm some_value
  · rintro ⟨j, here, rfl, _⟩
    rw [n.find?_of_key here]
    rfl

/-- **What is read is what was stored last.** -/
theorem get_set_self (s : Bytes) (v : Value) : (t.set (.str s) v).get (.str s) = v := by
  obtain ⟨named, sets, _⟩ := n.set s v
  refine eq_of_values fun w some_value => ?_
  rw [named.get_iff some_value, sets]
  simp [some_value, eq_comm]

/-- **Another name is read as before.** -/
theorem get_set_of_ne {s s' : Bytes} (other : s' ≠ s) (v : Value) :
    (t.set (.str s) v).get (.str s') = t.get (.str s') := by
  obtain ⟨named, sets, _⟩ := n.set s v
  refine eq_of_values fun w some_value => ?_
  rw [named.get_iff some_value, sets, ← n.get_iff some_value, Value.str.injEq]
  simp [other]

end

end Named

end ScriptHost.Script.Table
