import ScriptHost.Proofs.Search.Entries

/-!
# Paths and their parents

Where a path leads is told by its *steps*: its components without `.`, which leads
nowhere. They are the root of an absolute path and then the names between
separators, and neither the `.` at the beginning nor separators that say nothing
make a difference.

* `steps_eq`: the steps of a path, by its first character and its names.
* `parts_trimEnd`: what `parent?` trims says nothing.
* `parent?_steps`: the parent of a path has all of its steps but the last.
-/
namespace ScriptHost.Path

variable {path p q body : List Char}

/-- The components of a path without `.`. -/
def steps (path : List Char) : List Component := (components path).filter (· ≠ .here)

/-- The components that the names between separators are. -/
def parts (body : List Char) : List Component := (names body).filterMap Component.ofName?

/-- The root of an absolute path. -/
def root (path : List Char) : List Component := if path.head? = some '/' then [.root] else []

theorem names_eq (body : List Char) : names body = body.splitOn '/' :=
  eq_splitOn rfl (fun _ _ => by rw [names]; cases names _ <;> rfl) body

theorem ofName?_ne_here (n : List Char) : Component.ofName? n ≠ some .here := by
  unfold Component.ofName?
  split
  · nofun
  · split <;> nofun

theorem here_notMem_parts (body : List Char) : Component.here ∉ parts body := by
  rw [parts, List.mem_filterMap]
  rintro ⟨n, -, hn⟩
  exact ofName?_ne_here n hn

@[simp] theorem parts_nil : parts [] = [] := rfl

@[simp] theorem parts_dot : parts ['.'] = [] := rfl

theorem parts_append (p q : List Char) : parts (p ++ '/' :: q) = parts p ++ parts q := by
  simp only [parts, names_eq, List.splitOn_append_cons_self, List.filterMap_append]

theorem parts_slash (q : List Char) : parts ('/' :: q) = parts q := parts_append [] q

theorem parts_dot_slash (q : List Char) : parts ('.' :: '/' :: q) = parts q := parts_append ['.'] q

/-- A single name. -/
theorem parts_of_notMem (h : '/' ∉ body) : parts body = (Component.ofName? body).toList := by
  rw [parts, names_eq, List.splitOn_eq_singleton h]
  cases h : Component.ofName? body <;> simp [h]

/-- The lead is a name like others, or a separator. -/
theorem parts_drop_lead (path : List Char) : parts (path.drop (leadLength path)) = parts path := by
  unfold leadLength
  split
  · exact (parts_slash _).symm
  · rfl
  · exact (parts_slash _).trans (parts_dot_slash _).symm
  · rfl

/-- **The steps of a path** are its root and what its names are. -/
theorem steps_eq (path : List Char) : steps path = root path ++ parts path := by
  have names_kept : (parts path).filter (· ≠ .here) = parts path :=
    List.filter_eq_self.mpr fun c hc => decide_eq_true fun here =>
      here_notMem_parts path (here ▸ hc)
  have lead : (leadComponents path).filter (· ≠ .here) = root path := by
    unfold leadComponents root
    split
    · rfl
    · rfl
    · rfl
    · rename_i slash _ _
      refine (if_neg fun h => ?_).symm
      obtain ⟨r, rfl⟩ := List.head?_eq_some_iff.mp h
      exact slash r rfl
  rw [steps, components, List.filter_append, lead, ← parts, parts_drop_lead, names_kept]

/-! ## Parents -/

/-- What is trimmed from the end says nothing. -/
theorem parts_trimEnd (r : List Char) : parts (trimEnd r).reverse = parts r.reverse := by
  fun_induction trimEnd r with
  | case1 r ih => rw [ih, List.reverse_cons, parts_append, parts_nil, List.append_nil]
  | case2 => rfl
  | case3 r ih =>
    rw [ih, List.reverse_cons, List.reverse_cons, List.append_assoc]
    exact (List.append_nil _).symm.trans (parts_append r.reverse ['.']).symm
  | case4 => rfl

theorem trimEnd_suffix (r : List Char) : trimEnd r <:+ r := by
  fun_induction trimEnd r with
  | case1 r ih => exact ih.trans (List.suffix_cons _ _)
  | case2 => exact List.nil_suffix
  | case3 r ih => exact ih.trans ((List.suffix_cons _ _).trans (List.suffix_cons _ _))
  | case4 => exact List.suffix_rfl

/-- Of what was trimmed, the last name says something. -/
theorem ofName?_trimEnd {r : List Char} (some_ : trimEnd r ≠ []) :
    ∃ c, Component.ofName? ((trimEnd r).takeWhile (· ≠ '/')).reverse = some c := by
  fun_induction trimEnd r with
  | case1 r ih => exact ih some_
  | case2 => exact absurd rfl some_
  | case3 r ih => exact ih some_
  | case4 r slash dot dots =>
    have named : ¬((r.takeWhile (· ≠ '/')).reverse = [] ∨ (r.takeWhile (· ≠ '/')).reverse = ['.']) := by
      rw [List.reverse_eq_nil_iff, List.reverse_eq_cons_iff]
      rcases r with _ | ⟨c, _ | ⟨d, r⟩⟩
      · exact absurd rfl some_
      · have := slash []
        by_cases hc : c = '/' <;> simp_all
      · have := slash (d :: r)
        have := dots r
        by_cases hc : c = '/' <;> by_cases hd : d = '/' <;> simp_all
    rw [Component.ofName?, if_neg named]
    split <;> exact ⟨_, rfl⟩

/-- The last name, and what stands before it. -/
theorem parts_reverse (b : List Char) : parts b.reverse =
    parts ((b.dropWhile (· ≠ '/')).drop 1).reverse ++
      (Component.ofName? (b.takeWhile (· ≠ '/')).reverse).toList := by
  have free : '/' ∉ (b.takeWhile (· ≠ '/')).reverse := fun h => by
    simpa using List.all_eq_true.mp List.all_takeWhile _ (List.mem_reverse.mp h)
  have split : b.takeWhile (· ≠ '/') ++ b.dropWhile (· ≠ '/') = b := List.takeWhile_append_dropWhile
  rw [← parts_of_notMem free]
  generalize b.takeWhile (· ≠ '/') = last at *
  cases hd : b.dropWhile (· ≠ '/') with
  | nil =>
    rw [hd, List.append_nil] at split
    rw [split]
    rfl
  | cons c rest =>
    obtain rfl : c = '/' := by
      have first := List.head?_dropWhile_not (· ≠ '/') b
      rw [hd] at first
      simpa using first
    rw [hd] at split
    rw [← split, List.reverse_append, List.reverse_cons, List.append_assoc, List.singleton_append,
      parts_append]
    rfl

theorem root_of_prefix (h : q <+: path) (some_ : path.head? = some '/' → q ≠ []) :
    root q = root path := by
  obtain ⟨r, rfl⟩ := h
  cases q with
  | nil =>
    refine (if_neg fun slash => ?_).symm
    exact some_ slash rfl
  | cons c q => rfl

/-- Behind the lead of a path, the lead says nothing. -/
theorem parts_take_lead (h : q <+: path.drop (leadLength path)) :
    parts (path.take (leadLength path) ++ q) = parts q := by
  fun_cases leadLength path with
  | case1 r => exact parts_slash q
  | case2 =>
    rw [List.prefix_nil.mp h]
    rfl
  | case3 r =>
    rcases List.prefix_cons_iff.mp h with rfl | ⟨t, rfl, -⟩
    · rfl
    · exact (parts_dot_slash t).trans (parts_slash t).symm
  | case4 => rfl

/-- **The parent of a path** that says something behind its lead is a piece of its beginning. It is
absolute if the path is, and has all of its names but the last. -/
theorem parent?_spec (some_ : parts path ≠ []) :
    ∃ q, parent? path = some q ∧ q <+: path ∧ root q = root path ∧
      parts q = (parts path).dropLast := by
  have body := parts_trimEnd (path.drop (leadLength path)).reverse
  rw [List.reverse_reverse, parts_drop_lead] at body
  have suffix := trimEnd_suffix (path.drop (leadLength path)).reverse
  have nonempty : trimEnd (path.drop (leadLength path)).reverse ≠ [] := fun h =>
    some_ (by rw [← body, h]; rfl)
  obtain ⟨c, named⟩ := ofName?_trimEnd nonempty
  unfold parent?
  generalize trimEnd (path.drop (leadLength path)).reverse = b at body suffix nonempty named ⊢
  have last := parts_reverse b
  rw [body, named, Option.toList_some] at last
  -- what is left of the body
  have left := parts_trimEnd ((b.dropWhile (· ≠ '/')).drop 1)
  have pre : (trimEnd ((b.dropWhile (· ≠ '/')).drop 1)).reverse <+: path.drop (leadLength path) := by
    rw [← List.reverse_suffix, List.reverse_reverse]
    exact (((trimEnd_suffix _).trans (List.drop_suffix _ _)).trans (List.dropWhile_suffix _)).trans
      suffix
  have whole := (List.prefix_append_right_inj (path.take (leadLength path))).mpr pre
  rw [List.take_append_drop] at whole
  obtain ⟨d, b, rfl⟩ := List.exists_cons_of_ne_nil nonempty
  refine ⟨_, rfl, whole, root_of_prefix whole fun slash => ?_, ?_⟩
  · obtain ⟨r, rfl⟩ := List.head?_eq_some_iff.mp slash
    nofun
  · rw [parts_take_lead pre, left, last, List.dropLast_concat]

end ScriptHost.Path
