import ScriptHost.Proofs.Text.Unit

/-!
# The text of a byte string

`Decodes x cs` says that `cs` is the text of the bytes `x`: characters where
their encodings stand, and one U+FFFD for every maximal invalid subpart.

* `decodes_iff`: `Utf8.lossy` finds the one text there is.
* `scan_append`: scanning goes on where it stopped, with the tail it left over.
* `scan_encoded`: well-formed bytes are scanned to the end, and give back their text.
-/
namespace ScriptHost.Utf8

/-- `cs` is the text of a complete byte string. -/
inductive Decodes : List UInt8 → List Char → Prop where
  | nil : Decodes [] []
  | char (c : Char) {x : List UInt8} {cs : List Char} :
    Decodes x cs → Decodes (String.utf8EncodeChar c ++ x) (c :: cs)
  | invalid {p x : List UInt8} {cs : List Char} :
    MaximalSubpart p (p ++ x) → Decodes x cs → Decodes (p ++ x) (replacement :: cs)

theorem encode_ne_nil (c : Char) : String.utf8EncodeChar c ≠ [] := by
  have h := String.length_utf8EncodeChar c
  have := c.utf8Size_pos
  intro h0
  rw [h0] at h
  simp at h
  omega

theorem encode_inj {c d : Char} {x y : List UInt8}
    (h : String.utf8EncodeChar c ++ x = String.utf8EncodeChar d ++ y) : c = d ∧ x = y := by
  have hc := head_encode c x
  rw [h, head_encode] at hc
  cases hc
  exact ⟨rfl, List.append_cancel_left h⟩

/-- A byte string has one text. -/
theorem Decodes.unique {x : List UInt8} {cs ds : List Char} (hc : Decodes x cs)
    (hd : Decodes x ds) : cs = ds := by
  induction hc generalizing ds with
  | nil =>
    generalize hx : ([] : List UInt8) = x at hd
    cases hd with
    | nil => rfl
    | char c _ => exact absurd (List.append_eq_nil_iff.mp hx.symm).1 (encode_ne_nil c)
    | invalid hm _ =>
      have h0 := (List.append_eq_nil_iff.mp hx.symm).1
      have := hm.pos
      rw [h0] at this
      cases this
  | @char c x cs _ ih =>
    generalize hx : String.utf8EncodeChar c ++ x = z at hd
    cases hd with
    | nil => exact absurd (List.append_eq_nil_iff.mp hx).1 (encode_ne_nil c)
    | char d hd =>
      obtain ⟨rfl, rfl⟩ := encode_inj hx
      rw [ih hd]
    | invalid hm _ => exact absurd ⟨x, hx⟩ (hm.noChar c)
  | @invalid p x cs hm _ ih =>
    generalize hx : p ++ x = z at hd
    cases hd with
    | nil =>
      have := hm.pos
      rw [(List.append_eq_nil_iff.mp hx).1] at this
      cases this
    | char d _ => exact absurd ⟨_, hx.symm⟩ (hm.noChar d)
    | @invalid q y ds hq hd =>
      rw [← hx] at hq
      obtain rfl := hm.unique hq
      rw [ih (List.append_cancel_left hx ▸ hd)]

/-! ## Scanning -/

/-- What a recognised unit is read as, and its length. -/
def Head.unit? : Head → Option (Char × Nat)
  | .char c n => some (c, n)
  | .invalid n => some (replacement, n)
  | .done | .incomplete => none

theorem head_eq_done {x : List UInt8} (h : head x = .done) : x = [] := by
  rcases x with _ | ⟨a, r⟩
  · rfl
  · unfold head at h
    grind

theorem unit?_size {x : List UInt8} {c : Char} {n : Nat} (h : (head x).unit? = some (c, n)) :
    0 < n ∧ n ≤ x.length := by
  cases hx : head x <;> rw [hx] at h <;> cases h
  · obtain ⟨r, rfl, rfl⟩ := encode_of_head hx
    exact ⟨List.length_pos_iff.mpr (encode_ne_nil _), by simp⟩
  · exact ⟨(head_invalid hx).1, (head_invalid hx).2.1⟩

/-- Bytes that hold no whole unit are at most three. -/
theorem length_of_none {x : List UInt8} (h : (head x).unit? = none) : x.length ≤ 3 := by
  have reads := reads_head x
  cases hx : head x <;> rw [hx] at h reads <;> cases h
  · rw [head_eq_done hx]
    exact Nat.zero_le 3
  · cases reads <;> simp

theorem unit?_append {x : List UInt8} {u : Char × Nat} (h : (head x).unit? = some u)
    (y : List UInt8) : (head (x ++ y)).unit? = some u := by
  rw [head_append y (fun h0 => by rw [h0] at h; cases h) (fun h0 => by rw [h0] at h; cases h), h]

theorem scanFrom_succ (fuel : Nat) (t : String) (x : List UInt8) :
    scanFrom (fuel + 1) t x = match (head x).unit? with
      | some (c, n) => scanFrom fuel (t.push c) (x.drop n)
      | none => (t, x) := by
  rw [scanFrom]
  cases hx : head x <;> simp only [Head.unit?]
  rw [head_eq_done hx]

theorem push_append (s t : String) (c : Char) : s.push c ++ t = s ++ ("".push c ++ t) := by
  rw [String.push_eq_append, String.push_eq_append, String.append_assoc, String.empty_append]

/-- What was read before stands in front. -/
theorem scanFrom_text (fuel : Nat) (t : String) (x : List UInt8) :
    scanFrom fuel t x = (t ++ (scanFrom fuel "" x).1, (scanFrom fuel "" x).2) := by
  induction fuel generalizing t x with
  | zero => simp [scanFrom]
  | succ fuel ih =>
    rw [scanFrom_succ, scanFrom_succ]
    rcases (head x).unit? with _ | ⟨c, n⟩
    · simp
    · simp only
      rw [ih (t.push c), ih ("".push c), push_append]

/-- More fuel than bytes makes no difference. -/
theorem scanFrom_fuel {fuel : Nat} {x : List UInt8} (h : x.length ≤ fuel) :
    scanFrom fuel "" x = scan x := by
  rw [scan]
  induction hk : x.length using Nat.strongRecOn generalizing fuel x with
  | ind k ih =>
    subst hk
    rcases x with _ | ⟨a, r⟩
    · cases fuel <;> rfl
    obtain ⟨fuel, rfl⟩ : ∃ f, fuel = f + 1 := ⟨fuel - 1, by simp at h; omega⟩
    rw [List.length_cons, scanFrom_succ, scanFrom_succ]
    cases hu : (head (a :: r)).unit? with
    | none => rfl
    | some u =>
      obtain ⟨c, n⟩ := u
      have hn := unit?_size hu
      have hl : ((a :: r).drop n).length < (a :: r).length := by
        rw [List.length_drop]; omega
      have e1 := @ih _ hl fuel _ (by simp at h hl ⊢; omega) rfl
      have e2 := @ih _ hl r.length _ (by simp at hl ⊢; omega) rfl
      simp only
      rw [scanFrom_text, scanFrom_text r.length, e1, e2]

theorem scan_of_none {x : List UInt8} (h : (head x).unit? = none) : scan x = ("", x) := by
  rw [scan]
  cases hk : x.length with
  | zero => rw [List.length_eq_zero_iff.mp hk]; rfl
  | succ k => rw [scanFrom_succ, h]

theorem scan_of_some {x : List UInt8} {c : Char} {n : Nat} (h : (head x).unit? = some (c, n)) :
    scan x = ("".push c ++ (scan (x.drop n)).1, (scan (x.drop n)).2) := by
  have hn := unit?_size h
  obtain ⟨k, hk⟩ : ∃ k, x.length = k + 1 := ⟨x.length - 1, by omega⟩
  rw [scan, hk, scanFrom_succ, h]
  simp only
  rw [scanFrom_text, scanFrom_fuel (by rw [List.length_drop]; omega)]

/-- Scanning goes on where it stopped, with the tail it left over. -/
theorem scan_append (x y : List UInt8) :
    scan (x ++ y) = ((scan x).1 ++ (scan ((scan x).2 ++ y)).1, (scan ((scan x).2 ++ y)).2) := by
  induction hk : x.length using Nat.strongRecOn generalizing x with
  | ind k ih =>
    subst hk
    cases hu : (head x).unit? with
    | none => simp [scan_of_none hu]
    | some u =>
      obtain ⟨c, n⟩ := u
      have hn := unit?_size hu
      rw [scan_of_some hu, scan_of_some (unit?_append hu y), List.drop_append_of_le_length hn.2,
        ih _ (by rw [List.length_drop]; omega) _ rfl]
      simp only [String.append_assoc]

/-- What scanning leaves over holds no unit. -/
theorem scan_tail (x : List UInt8) : (head (scan x).2).unit? = none := by
  induction hk : x.length using Nat.strongRecOn generalizing x with
  | ind k ih =>
    subst hk
    cases hu : (head x).unit? with
    | none => rw [scan_of_none hu]; exact hu
    | some u =>
      obtain ⟨c, n⟩ := u
      have hn := unit?_size hu
      rw [scan_of_some hu]
      exact ih _ (by rw [List.length_drop]; omega) _ rfl

theorem scan_encode_append (c : Char) (x : List UInt8) :
    scan (String.utf8EncodeChar c ++ x) = ("".push c ++ (scan x).1, (scan x).2) := by
  have h : (head (String.utf8EncodeChar c ++ x)).unit? = some (c, (String.utf8EncodeChar c).length) := by
    rw [head_encode]; rfl
  rw [scan_of_some h, List.drop_left]

/-- Well-formed bytes are scanned to the end, and give back their text. -/
theorem scan_encoded (cs : List Char) :
    scan (cs.flatMap String.utf8EncodeChar) = (String.ofList cs, []) := by
  induction cs with
  | nil => rfl
  | cons c cs ih =>
    rw [List.flatMap_cons, scan_encode_append, ih]
    congr 1
    apply String.toList_inj.mp
    simp

/-- Bytes that complete no text are all left over. -/
theorem scan_of_empty {x : List UInt8} (h : (scan x).1 = "") : scan x = ("", x) := by
  cases hu : (head x).unit? with
  | none => exact scan_of_none hu
  | some u =>
    obtain ⟨c, n⟩ := u
    rw [scan_of_some hu] at h
    have := congrArg String.toList h
    simp at this

/-! ## The whole text -/

theorem lossy_eq (x : List UInt8) : lossy x = (scan x).1 ++ lossy (scan x).2 := by
  have ht := scan_of_none (scan_tail x)
  simp only [lossy, ht]
  split
  · simp
  · rw [String.push_eq_append, String.push_eq_append, String.empty_append]

/-- The text of all bytes goes on where a scan of the first has stopped. -/
theorem lossy_append (x y : List UInt8) : lossy (x ++ y) = (scan x).1 ++ lossy ((scan x).2 ++ y) := by
  rw [lossy_eq, scan_append, lossy_eq ((scan x).2 ++ y), String.append_assoc]

/-- Only no bytes have no text. -/
theorem lossy_eq_empty {x : List UInt8} : lossy x = "" ↔ x = [] := by
  refine ⟨fun h => ?_, fun h => by rw [h]; rfl⟩
  have none : (scan x).1 = "" := by
    rw [lossy_eq] at h
    exact (String.append_eq_empty_iff.mp h).1
  by_contra some_
  simp [lossy, scan_of_empty none, some_] at h

theorem lossy_of_some {x : List UInt8} {c : Char} {n : Nat} (h : (head x).unit? = some (c, n)) :
    (lossy x).toList = c :: (lossy (x.drop n)).toList := by
  rw [lossy_eq, scan_of_some h, lossy_eq (x.drop n)]
  simp

theorem lossy_of_incomplete {x : List UInt8} (h : head x = .incomplete) :
    lossy x = "".push replacement := by
  have hs : scan x = ("", x) := scan_of_none (by rw [h]; rfl)
  have hx : x ≠ [] := fun h0 => by rw [h0] at h; cases h
  simp [lossy, hs, hx]

theorem decodes_lossy (x : List UInt8) : Decodes x (lossy x).toList := by
  induction hk : x.length using Nat.strongRecOn generalizing x with
  | ind k ih =>
    subst hk
    cases hx : head x with
    | done => rw [head_eq_done hx]; exact .nil
    | char c n =>
      obtain ⟨r, hr, hn⟩ := encode_of_head hx
      have hp := List.length_pos_iff.mpr (encode_ne_nil c)
      rw [lossy_of_some (by rw [hx]; rfl), hn]
      subst hr
      rw [List.drop_left]
      exact .char c (ih _ (by rw [List.length_append]; omega) r rfl)
    | invalid n =>
      have hm := maximalSubpart_of_invalid hx
      have hn := head_invalid hx
      have hd := ih _ (by rw [List.length_drop]; omega) (x.drop n) rfl
      rw [lossy_of_some (by rw [hx]; rfl)]
      have := Decodes.invalid (by rwa [List.take_append_drop]) hd
      rwa [List.take_append_drop] at this
    | incomplete =>
      have hm : MaximalSubpart x (x ++ []) := by
        rw [List.append_nil]
        exact maximalSubpart_of_incomplete hx
      have := Decodes.invalid hm .nil
      rw [lossy_of_incomplete hx]
      simpa using this

/-- **The one text of a byte string.** -/
theorem decodes_iff {x : List UInt8} {cs : List Char} : Decodes x cs ↔ cs = (lossy x).toList :=
  ⟨fun h => h.unique (decodes_lossy x), fun h => h ▸ decodes_lossy x⟩

end ScriptHost.Utf8
