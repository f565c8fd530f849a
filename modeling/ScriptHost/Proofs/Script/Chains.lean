import Mathlib.Data.Finset.Card
import Mathlib.Data.Nat.Find
import Mathlib.Logic.Relation
import ScriptHost.Proofs.Script.ByteStrings
import ScriptHost.Script.Table

/-!
# Chains of nodes

The nodes of a table as a function of their index, and `home` for the main position of a
key. The chains are sound whatever `home` is: every key is reached from its main position,
no key is there twice, and a node that is not at home stands in nobody's main position.

* `Rekeyed`, `Rerouted`: what two ways of storing a pair have in common.
* `Chained.write`, `Chained.occupy`, `Chained.append`, `Chained.displace`: the four ways
  in which a pair is stored keep the chains sound.
* `Pair`: what the nodes say of a key, and what each of these ways makes of it.
-/
namespace ScriptHost.Script.Table

open Function

/-- A node leads to the next one of its chain. -/
def Follows (g : Nat → Node) (i j : Nat) : Prop := (g i).next = j + 1

/-- A key has a value that is not nil. -/
def Pair (g : Nat → Node) (k v : Value) : Prop := ∃ i, (g i).key = k ∧ (g i).val = v ∧ v ≠ .nil

/-- One key has a new value, and all others have theirs. -/
def Sets (g g' : Nat → Node) (k v : Value) : Prop :=
  ∀ k' v', Pair g' k' v' ↔ (k' = k ∧ v' = v ∧ v' ≠ .nil) ∨ (k' ≠ k ∧ Pair g k' v')

/-- Nobody has used the node at an index. -/
def Unused (g : Nat → Node) (i : Nat) : Prop := (g i).key = .nil

/-- The chains are sound. -/
structure Chained (home : Value → Nat) (g : Nat → Node) : Prop where
  /-- An unused node holds nothing and leads nowhere. -/
  blank : ∀ i, Unused g i → (g i).val = .nil ∧ (g i).next = 0
  /-- No node leads to an unused one. -/
  ends : ∀ {i j}, Follows g i j → ¬ Unused g j
  /-- No key is there twice. -/
  once : ∀ {i j}, ¬ Unused g i → (g i).key = (g j).key → i = j
  /-- Chains do not join. -/
  single : ∀ {i i' j}, Follows g i j → Follows g i' j → i = i'
  /-- Every key is reached from its main position. -/
  reached : ∀ i, ¬ Unused g i → Relation.ReflTransGen (Follows g) (home (g i).key) i
  /-- Where a key stands that has its main position elsewhere, nobody has his. -/
  settled : ∀ {i j}, ¬ Unused g i → home (g i).key ≠ i → ¬ Unused g j → home (g j).key ≠ i

variable {home : Value → Nat} {g : Nat → Node} {k v : Value} {m f p : Nat}

/-- Nothing is reached from an unused node. -/
theorem Chained.stuck (c : Chained home g) {i j : Nat} (unused : Unused g i)
    (r : Relation.ReflTransGen (Follows g) i j) : j = i := by
  rcases Relation.ReflTransGen.cases_head r with rfl | ⟨i', first, _⟩
  · rfl
  · have none := (c.blank i unused).2
    rw [Follows, none] at first
    cases first

theorem Chained.not_follows (c : Chained home g) {i j : Nat} (unused : Unused g i) : ¬ Follows g i j := by
  rw [Follows, (c.blank i unused).2]
  exact (Nat.succ_ne_zero j).symm

theorem Chained.ne_of_follows (c : Chained home g) {i j : Nat} (free : Unused g f) (h : Follows g i j) :
    i ≠ f := by
  rintro rfl
  exact c.not_follows free h

/-- Nobody has an unused node as his main position, but the node's next owner. -/
theorem Chained.unclaimed (c : Chained home g) {i j : Nat} (unused : Unused g i) (used : ¬ Unused g j) :
    home (g j).key ≠ i := by
  intro h
  have here := c.stuck unused (h ▸ c.reached j used)
  exact used (here ▸ unused)

theorem Chained.empty : Chained home fun _ => {} :=
  ⟨fun _ _ => ⟨rfl, rfl⟩, nofun, fun used => absurd rfl used, nofun, fun _ used => absurd rfl used,
    fun used => absurd rfl used⟩

/-! ## A new value for a key -/

/-- The nodes after one of them got a new value. -/
def written (g : Nat → Node) (p : Nat) (v : Value) : Nat → Node := update g p { g p with val := v }

theorem key_written (i : Nat) : (written g p v i).key = (g i).key := by
  rw [written, update_apply]
  split_ifs with h
  · rw [h]
  · rfl

theorem follows_written : Follows (written g p v) = Follows g := by
  funext i j
  rw [Follows, written, update_apply]
  split_ifs with h
  · rw [h]
    rfl
  · rfl

theorem unused_written (i : Nat) : Unused (written g p v) i ↔ Unused g i := by
  rw [Unused, key_written]
  rfl

theorem Chained.write (c : Chained home g) (used : ¬ Unused g p) (v : Value) :
    Chained home (written g p v) := by
  refine ⟨fun i hi => ?_, fun hf => ?_, fun used same => ?_, fun h h' => ?_, fun i used => ?_,
    fun used away used' => ?_⟩
  · rw [unused_written] at hi
    have other : i ≠ p := fun h => used (h ▸ hi)
    rw [written, update_of_ne other]
    exact c.blank i hi
  · rw [unused_written]
    rw [follows_written] at hf
    exact c.ends hf
  · rw [unused_written] at used
    rw [key_written, key_written] at same
    exact c.once used same
  · rw [follows_written] at h h'
    exact c.single h h'
  · rw [unused_written] at used
    rw [key_written, follows_written]
    exact c.reached i used
  · rw [unused_written] at used used'
    rw [key_written] at away ⊢
    exact c.settled used away used'

theorem Chained.sets_written (c : Chained home g) (used : ¬ Unused g p) (v : Value) :
    Sets g (written g p v) (g p).key v := by
  have val (i : Nat) : (written g p v i).val = if i = p then v else (g i).val := by
    rw [written, update_apply]
    split_ifs <;> rfl
  intro k' v'
  constructor
  · rintro ⟨i, hk, hv, some_value⟩
    rw [key_written] at hk
    rw [val] at hv
    split_ifs at hv with hi
    · exact .inl ⟨hk ▸ hi ▸ rfl, hv.symm, some_value⟩
    · exact .inr ⟨fun h => hi (c.once used (h ▸ hk).symm).symm, i, hk, hv, some_value⟩
  · rintro (⟨rfl, rfl, some_value⟩ | ⟨other, i, rfl, rfl, some_value⟩)
    · exact ⟨p, key_written p, by rw [val, if_pos rfl], some_value⟩
    · refine ⟨i, key_written i, ?_, some_value⟩
      rw [val, if_neg]
      rintro rfl
      exact other rfl

/-! ## A key that is new -/

/-- One node has another key. -/
def Rekeyed (g g' : Nat → Node) (x : Nat) (k : Value) : Prop :=
  ∀ i, (g' i).key = if i = x then k else (g i).key

section

variable {g' : Nat → Node} {x i j : Nat}

theorem Rekeyed.unused (r : Rekeyed g g' x k) (named : k ≠ .nil) (i : Nat) :
    Unused g' i ↔ i ≠ x ∧ Unused g i := by
  rw [Unused, r]
  split_ifs <;> simp_all [Unused]

theorem Rekeyed.once (r : Rekeyed g g' x k) (c : Chained home g) (named : k ≠ .nil)
    (fresh : ∀ i, (g i).key ≠ k) (used : ¬ Unused g' i) (same : (g' i).key = (g' j).key) : i = j := by
  rw [r.unused named] at used
  rw [r, r] at same
  split_ifs at same with hi hj
  · exact hi.trans hj.symm
  · exact absurd same.symm (fresh j)
  · exact absurd same (fresh i)
  · exact c.once (by tauto) same

/-- The node had no value, so all other keys keep theirs. -/
theorem Rekeyed.sets (r : Rekeyed g g' x k) (fresh : ∀ i, (g i).key ≠ k) (vacant : (g x).val = .nil)
    (val : ∀ i, (g' i).val = if i = x then v else (g i).val) : Sets g g' k v := by
  intro k' v'
  constructor
  · rintro ⟨i, hk, hv, some_value⟩
    rw [r] at hk
    rw [val] at hv
    split_ifs at hk hv
    · exact .inl ⟨hk.symm, hv.symm, some_value⟩
    · exact .inr ⟨fun h => fresh i (h ▸ hk), i, hk, hv, some_value⟩
  · rintro (⟨rfl, rfl, some_value⟩ | ⟨other, i, rfl, rfl, some_value⟩)
    · exact ⟨x, by rw [r, if_pos rfl], by rw [val, if_pos rfl], some_value⟩
    · have elsewhere : i ≠ x := fun h => some_value (h ▸ vacant)
      exact ⟨i, by rw [r, if_neg elsewhere], by rw [val, if_neg elsewhere], some_value⟩

end

/-- The nodes after a key has taken its main position. -/
def occupied (g : Nat → Node) (m : Nat) (k v : Value) : Nat → Node :=
  update g m ⟨k, v, (g m).next⟩

theorem rekeyed_occupied : Rekeyed g (occupied g m k v) m k := by
  intro i
  rw [occupied, update_apply]
  split_ifs <;> rfl

theorem follows_occupied : Follows (occupied g m k v) = Follows g := by
  funext i j
  rw [Follows, occupied, update_apply]
  split_ifs with h
  · rw [h]
    rfl
  · rfl

/-- A key takes its main position, where no value is. -/
theorem Chained.occupy (c : Chained home g) (named : k ≠ .nil) (fresh : ∀ i, (g i).key ≠ k)
    (at_home : home k = m) (v : Value) : Chained home (occupied g m k v) := by
  have key : Rekeyed g (occupied g m k v) m k := rekeyed_occupied
  have unused := key.unused named
  refine ⟨fun i hi => ?_, fun hf => ?_, key.once c named fresh, fun h h' => ?_, fun i used => ?_,
    fun {i j} used away used' => ?_⟩
  · obtain ⟨other, hi⟩ := (unused i).mp hi
    rw [occupied, update_of_ne other]
    exact c.blank i hi
  · rw [unused]
    rw [follows_occupied] at hf
    exact fun h => c.ends hf h.2
  · rw [follows_occupied] at h h'
    exact c.single h h'
  · rw [unused] at used
    rw [key, follows_occupied]
    split_ifs with h
    · rw [at_home, h]
    · exact c.reached i (by tauto)
  · rw [unused] at used used'
    rw [key] at away ⊢
    have other : i ≠ m := by
      rintro rfl
      rw [if_pos rfl] at away
      exact away at_home
    rw [if_neg other] at away
    split_ifs
    · rw [at_home]
      exact other.symm
    · exact c.settled (by tauto) away (by tauto)

theorem sets_occupied (fresh : ∀ i, (g i).key ≠ k) (vacant : (g m).val = .nil) (v : Value) :
    Sets g (occupied g m k v) k v :=
  rekeyed_occupied.sets fresh vacant fun i => by
    rw [occupied, update_apply]
    split_ifs <;> rfl

/-! ## A chain with one more node -/

/-- The chains go as before, but node `a` leads to `f`, and `f` goes on as `m` did. -/
def Rerouted (g g' : Nat → Node) (a m f : Nat) : Prop :=
  ∀ i j, Follows g' i j → (i = a ∧ j = f) ∨ (i = f ∧ Follows g m j) ∨ (i ≠ m ∧ Follows g i j)

section

variable {g' : Nat → Node} {a i i' j : Nat}

theorem Rerouted.ends (r : Rerouted g g' a m f) (c : Chained home g)
    (unused : ∀ i, Unused g' i ↔ i ≠ f ∧ Unused g i) (h : Follows g' i j) : ¬ Unused g' j := by
  rw [unused]
  rcases r i j h with ⟨_, rfl⟩ | ⟨_, h⟩ | ⟨_, h⟩
  · exact fun h => h.1 rfl
  · exact fun unused => c.ends h unused.2
  · exact fun unused => c.ends h unused.2

theorem Rerouted.single (r : Rerouted g g' a m f) (c : Chained home g) (free : Unused g f)
    (h : Follows g' i j) (h' : Follows g' i' j) : i = i' := by
  have nobody (i : Nat) : ¬ Follows g i f := fun h => c.ends h free
  rcases r i j h with ⟨hi, hj⟩ | ⟨hi, h⟩ | ⟨not_m, h⟩ <;>
    rcases r i' j h' with ⟨hi', hj'⟩ | ⟨hi', h'⟩ | ⟨not_m', h'⟩
  · exact hi.trans hi'.symm
  · exact absurd (hj ▸ h') (nobody _)
  · exact absurd (hj ▸ h') (nobody _)
  · exact absurd (hj' ▸ h) (nobody _)
  · exact hi.trans hi'.symm
  · exact absurd (c.single h' h) not_m'
  · exact absurd (hj' ▸ h) (nobody _)
  · exact absurd (c.single h h') not_m
  · exact c.single h h'

end

/-- The nodes after a key was put into a free node behind the one at its main position. -/
def appended (g : Nat → Node) (m f : Nat) (k v : Value) : Nat → Node :=
  update (update g f ⟨k, v, (g m).next⟩) m { g m with next := f + 1 }

theorem rekeyed_appended (apart : f ≠ m) : Rekeyed g (appended g m f k v) f k := by
  intro i
  rw [appended, update_apply, update_apply]
  split_ifs <;> simp_all

theorem next_appended (i : Nat) : (appended g m f k v i).next =
    if i = m then f + 1 else if i = f then (g m).next else (g i).next := by
  rw [appended, update_apply, update_apply]
  split_ifs <;> rfl

theorem rerouted_appended : Rerouted g (appended g m f k v) m m f := by
  intro i j h
  rw [Follows, next_appended] at h
  split_ifs at h
  · exact .inl ⟨‹_›, by omega⟩
  · exact .inr (.inl ⟨‹_›, h⟩)
  · exact .inr (.inr ⟨‹_›, h⟩)

/-- The way from `m` on leads over the new node. -/
theorem Chained.lift_appended (c : Chained home g) (apart : f ≠ m) (free : Unused g f) {i j : Nat}
    (h : Follows g i j) : Relation.ReflTransGen (Follows (appended g m f k v)) i j := by
  by_cases hi : i = m
  · subst hi
    have first : Follows (appended g i f k v) i f := by rw [Follows, next_appended, if_pos rfl]
    refine .head first (.single ?_)
    rw [Follows, next_appended, if_neg apart, if_pos rfl]
    exact h
  · refine .single ?_
    rw [Follows, next_appended, if_neg hi, if_neg (c.ne_of_follows free h)]
    exact h

/-- A key is put behind the key at its main position, which is at home. -/
theorem Chained.append (c : Chained home g) (named : k ≠ .nil) (fresh : ∀ i, (g i).key ≠ k)
    (at_home : home k = m) (free : Unused g f) (used_m : ¬ Unused g m) (owner : home (g m).key = m)
    (v : Value) : Chained home (appended g m f k v) := by
  have apart : f ≠ m := fun h => used_m (h ▸ free)
  have key : Rekeyed g (appended g m f k v) f k := rekeyed_appended apart
  have chains : Rerouted g (appended g m f k v) m m f := rerouted_appended
  have unused := key.unused named
  refine ⟨fun i hi => ?_, chains.ends c unused, key.once c named fresh, chains.single c free,
    fun i used => ?_, fun {i j} used away used' => ?_⟩
  · obtain ⟨other, hi⟩ := (unused i).mp hi
    have not_m : i ≠ m := fun h => used_m (h ▸ hi)
    rw [appended, update_of_ne not_m, update_of_ne other]
    exact c.blank i hi
  · rw [unused] at used
    rw [key]
    split_ifs with h
    · rw [h, at_home]
      exact .single (by rw [Follows, next_appended, if_pos rfl])
    · exact (c.reached i (by tauto)).lift' id fun _ _ => c.lift_appended apart free
  · rw [unused] at used used'
    rw [key] at away ⊢
    split_ifs at away ⊢ with hj hi hi
    · rw [at_home]
      exact hi ▸ apart.symm
    · intro h
      have here : i = m := h.symm.trans at_home
      exact away (here ▸ owner)
    · exact hi ▸ c.unclaimed free (by tauto)
    · exact c.settled (by tauto) away (by tauto)

theorem sets_appended (fresh : ∀ i, (g i).key ≠ k) (apart : f ≠ m) (free : (g f).val = .nil) (v : Value) :
    Sets g (appended g m f k v) k v :=
  (rekeyed_appended apart).sets fresh free fun i => by
    rw [appended, update_apply, update_apply]
    split_ifs <;> simp_all

/-! ## A key in the place of another -/

/-- The nodes after a key has taken its main position and the pair there has moved to a free node;
`p` led to it. -/
def displaced (g : Nat → Node) (m f p : Nat) (k v : Value) : Nat → Node :=
  update (update (update g p { g p with next := f + 1 }) f (g m)) m ⟨k, v, 0⟩

/-- Where the pair of a node is then. -/
def moved (m f i : Nat) : Nat := if i = m then f else i

theorem key_displaced (i : Nat) : (displaced g m f p k v i).key =
    if i = m then k else if i = f then (g m).key else (g i).key := by
  rw [displaced, update_apply, update_apply, update_apply]
  split_ifs <;> simp_all

theorem next_displaced (i : Nat) : (displaced g m f p k v i).next =
    if i = m then 0 else if i = f then (g m).next else if i = p then f + 1 else (g i).next := by
  rw [displaced, update_apply, update_apply, update_apply]
  split_ifs <;> rfl

theorem unused_displaced (used_m : ¬ Unused g m) (named : k ≠ .nil) (i : Nat) :
    Unused (displaced g m f p k v) i ↔ i ≠ f ∧ Unused g i := by
  rw [Unused, key_displaced]
  split_ifs <;> simp_all [Unused]

theorem rerouted_displaced : Rerouted g (displaced g m f p k v) p m f := by
  intro i j h
  rw [Follows, next_displaced] at h
  split_ifs at h
  · exact .inr (.inl ⟨‹_›, h⟩)
  · exact .inl ⟨‹_›, by omega⟩
  · exact .inr (.inr ⟨‹_›, h⟩)

theorem Chained.lift_displaced (c : Chained home g) (free : Unused g f) (apart : f ≠ m)
    (led : Follows g p m) (other : p ≠ m) {i j : Nat} (h : Follows g i j) :
    Follows (displaced g m f p k v) (moved m f i) (moved m f j) := by
  have p_not_f := c.ne_of_follows free led
  have i_not_f := c.ne_of_follows free h
  rw [Follows, next_displaced]
  by_cases hj : j = m
  · subst hj
    obtain rfl : i = p := c.single h led
    simp [moved, other, p_not_f]
  · by_cases hi : i = m
    · subst hi
      simpa [moved, hj, apart, Follows] using h
    · have i_not_p : i ≠ p := by
        rintro rfl
        exact hj (Nat.succ_injective (h.symm.trans led))
      simpa [moved, hi, hj, i_not_f, i_not_p, Follows] using h

/-- A key whose node is not at home has not lost its way. -/
theorem Chained.path_displaced (c : Chained home g) (free : Unused g f) (used_m : ¬ Unused g m)
    (stranger : home (g m).key ≠ m) (led : Follows g p m) (other : p ≠ m) {i : Nat} (used : ¬ Unused g i) :
    Relation.ReflTransGen (Follows (displaced g m f p k v)) (home (g i).key) (moved m f i) := by
  have apart : f ≠ m := fun h => used_m (h ▸ free)
  have start : moved m f (home (g i).key) = home (g i).key := if_neg (c.settled used_m stranger used)
  exact start ▸ (c.reached i used).lift (moved m f) fun _ _ => c.lift_displaced free apart led other

theorem Chained.once_displaced (c : Chained home g) (named : k ≠ .nil) (fresh : ∀ i, (g i).key ≠ k)
    (used_m : ¬ Unused g m) {i j : Nat} (used : ¬ Unused (displaced g m f p k v) i)
    (same : (displaced g m f p k v i).key = (displaced g m f p k v j).key) : i = j := by
  rw [unused_displaced used_m named] at used
  rw [key_displaced, key_displaced] at same
  have new (i : Nat) : k ≠ (g i).key := (fresh i).symm
  split_ifs at same
  · exact ‹i = m›.trans ‹j = m›.symm
  · exact absurd same (new _)
  · exact absurd same (new _)
  · exact absurd same (fresh _)
  · exact ‹i = f›.trans ‹j = f›.symm
  · exact absurd (c.once used_m same).symm ‹_›
  · exact absurd same (fresh _)
  · exact absurd (c.once used_m same.symm).symm ‹_›
  · exact c.once (by tauto) same

/-- A key takes its main position, where another key was that is not at home. -/
theorem Chained.displace (c : Chained home g) (named : k ≠ .nil) (fresh : ∀ i, (g i).key ≠ k)
    (at_home : home k = m) (free : Unused g f) (used_m : ¬ Unused g m)
    (stranger : home (g m).key ≠ m) (led : Follows g p m) (other : p ≠ m) (v : Value) :
    Chained home (displaced g m f p k v) := by
  have apart : f ≠ m := fun h => used_m (h ▸ free)
  have key := key_displaced (g := g) (m := m) (f := f) (p := p) (k := k) (v := v)
  have unused := unused_displaced (g := g) (f := f) (p := p) (v := v) used_m named
  have chains : Rerouted g (displaced g m f p k v) p m f := rerouted_displaced
  refine ⟨fun i hi => ?_, chains.ends c unused, c.once_displaced named fresh used_m, chains.single c free,
    fun i used => ?_, fun {i j} used away used' => ?_⟩
  · obtain ⟨i_not_f, hi⟩ := (unused i).mp hi
    have i_not_m : i ≠ m := fun h => used_m (h ▸ hi)
    have i_not_p : i ≠ p := (c.ne_of_follows hi led).symm
    rw [displaced, update_of_ne i_not_m, update_of_ne i_not_f, update_of_ne i_not_p]
    exact c.blank i hi
  · rw [unused] at used
    have path {i : Nat} := c.path_displaced (k := k) (v := v) (i := i) free used_m stranger led other
    rw [key]
    split_ifs with hi hf
    · rw [at_home, hi]
    · have here := path used_m
      rw [hf]
      rwa [moved, if_pos rfl] at here
    · have here := path (i := i) (by tauto)
      rwa [moved, if_neg hi] at here
  · rw [unused] at used used'
    rw [key] at away ⊢
    have i_not_m : i ≠ m := by
      intro hi
      rw [if_pos hi] at away
      exact away (at_home.trans hi.symm)
    rw [if_neg i_not_m] at away
    by_cases hf : i = f
    · subst hf
      split_ifs
      · exact at_home ▸ apart.symm
      · exact c.unclaimed free used_m
      · exact c.unclaimed free (by tauto)
    · rw [if_neg hf] at away
      split_ifs
      · exact at_home ▸ i_not_m.symm
      · exact c.settled (by tauto) away used_m
      · exact c.settled (by tauto) away (by tauto)

theorem sets_displaced (fresh : ∀ i, (g i).key ≠ k) (apart : f ≠ m) (free : (g f).val = .nil) (v : Value) :
    Sets g (displaced g m f p k v) k v := by
  have val (i : Nat) : (displaced g m f p k v i).val =
      if i = m then v else if i = f then (g m).val else (g i).val := by
    rw [displaced, update_apply, update_apply, update_apply]
    split_ifs <;> simp_all
  intro k' v'
  constructor
  · rintro ⟨i, hk, hv, some_value⟩
    rw [key_displaced] at hk
    rw [val] at hv
    split_ifs at hk hv
    · exact .inl ⟨hk.symm, hv.symm, some_value⟩
    · exact .inr ⟨fun h => fresh m (h ▸ hk), m, hk, hv, some_value⟩
    · exact .inr ⟨fun h => fresh i (h ▸ hk), i, hk, hv, some_value⟩
  · rintro (⟨rfl, rfl, some_value⟩ | ⟨other, i, rfl, rfl, some_value⟩)
    · exact ⟨m, by rw [key_displaced, if_pos rfl], by rw [val, if_pos rfl], some_value⟩
    · by_cases hi : i = m
      · subst hi
        exact ⟨f, by rw [key_displaced, if_neg apart, if_pos rfl],
          by rw [val, if_neg apart, if_pos rfl], some_value⟩
      · have not_f : i ≠ f := fun h => some_value (h ▸ free)
        exact ⟨i, by rw [key_displaced, if_neg hi, if_neg not_f], by rw [val, if_neg hi, if_neg not_f],
          some_value⟩

end ScriptHost.Script.Table
