import PodRules.Order.Sorting

/-!
Lists sorted by a key. Sorting keeps the order of the entries that it does not separate
(`filter_sortBy`), so the entries of each key determine the sorted list (`eq_of_filter_key`). Where
no key occurs twice the sorted list depends on the entries only (`eq_of_perm_of_sorted_key`).
-/

namespace PodRules

/-! ## The order of equals -/

section Stable

variable {α : Type} {le : α → α → Bool} {p : α → Bool}

/-- An entry passes only entries that are smaller. -/
theorem filter_insertSorted (h : ∀ a b, p a = true → p b = true → le a b = true) (x : α)
    (ys : List α) : (insertSorted le x ys).filter p = (x :: ys).filter p := by
  induction ys with
  | nil => rfl
  | cons y ys ih =>
    by_cases hxy : le x y = true
    · simp only [insertSorted, hxy, if_true]
    · have hnot : ¬ (p x = true ∧ p y = true) := fun hp => hxy (h x y hp.1 hp.2)
      simp only [insertSorted, hxy, Bool.false_eq_true, if_false, List.filter_cons, ih]
      by_cases hx : p x = true
      · have hy : ¬ p y = true := fun hy => hnot ⟨hx, hy⟩
        simp [hx, hy]
      · simp [hx]

/-- Sorting is stable: elements that count as equal stay in their order. -/
theorem filter_sortBy (h : ∀ a b, p a = true → p b = true → le a b = true) (xs : List α) :
    (sortBy le xs).filter p = xs.filter p := by
  induction xs with
  | nil => rfl
  | cons x xs ih => rw [sortBy, filter_insertSorted h, List.filter_cons, List.filter_cons, ih]

end Stable

/-! ## Sorted by a key -/

section Keys

variable {α κ : Type} [Ord κ] {key : α → κ} {xs ys : List α}

/-- A sorted list begins with the smallest key, also of a list that has the same entries of each
key. -/
theorem isLE_of_filter_key [Std.LawfulEqOrd κ] [DecidableEq κ] {x y : α}
    (hy : (y :: ys).Pairwise fun a b => (compare (key a) (key b)).isLE = true)
    (h : ∀ k, (x :: xs).filter (key · = k) = (y :: ys).filter (key · = k)) :
    (compare (key y) (key x)).isLE = true := by
  have hmem : x ∈ (y :: ys).filter (key · = key x) := by
    rw [← h]
    simp
  rcases List.mem_cons.1 (List.mem_filter.1 hmem).1 with rfl | hmem
  · simp [Std.ReflCmp.compare_self]
  · exact (List.pairwise_cons.1 hy).1 x hmem

variable [Std.TransOrd κ]

theorem pairwise_sortBy_key (key : α → κ) (xs : List α) :
    (sortBy (fun a b => (compare (key a) (key b)).isLE) xs).Pairwise
      fun a b => (compare (key a) (key b)).isLE = true := by
  apply pairwise_sortBy
  · intro a b
    rw [@Std.OrientedCmp.eq_swap _ compare _ (key b) (key a)]
    cases compare (key a) (key b) <;> simp
  · intro a b c
    exact Std.TransCmp.isLE_trans

variable [Std.LawfulEqOrd κ]

/-- Sorted by a key that tells the elements apart, a list is determined by what is in it. -/
theorem eq_of_perm_of_sorted_key (key : α → κ) (h : xs.Perm ys)
    (hx : xs.Pairwise fun a b => (compare (key a) (key b)).isLE = true)
    (hy : ys.Pairwise fun a b => (compare (key a) (key b)).isLE = true)
    (hkey : ∀ a ∈ xs, ∀ b ∈ xs, key a = key b → a = b) : xs = ys := by
  refine List.Perm.eq_of_pairwise ?_ hx hy h
  intro a b ha hb hab hba
  apply hkey a ha b (h.mem_iff.2 hb)
  exact Std.LawfulEqOrd.eq_of_compare (Std.OrientedCmp.isLE_antisymm hab hba)

variable [DecidableEq κ]

/-- A sorted list is determined by its entries of each key in their order. -/
theorem eq_of_filter_key (hx : xs.Pairwise fun a b => (compare (key a) (key b)).isLE = true)
    (hy : ys.Pairwise fun a b => (compare (key a) (key b)).isLE = true)
    (h : ∀ k, xs.filter (key · = k) = ys.filter (key · = k)) : xs = ys := by
  induction xs generalizing ys with
  | nil =>
    cases ys with
    | nil => rfl
    | cons y ys => simpa using h (key y)
  | cons x xs ih =>
    cases ys with
    | nil => simpa using h (key x)
    | cons y ys =>
      -- Both lists begin with the smallest key, and with the first entry of that key.
      have hkey : key x = key y :=
        Std.LawfulEqOrd.eq_of_compare (Std.OrientedCmp.isLE_antisymm
          (isLE_of_filter_key hx fun k => (h k).symm) (isLE_of_filter_key hy h))
      have hhead : x = y := by
        have hfirst := h (key x)
        simp only [List.filter_cons, hkey, decide_true, if_true] at hfirst
        exact (List.cons.inj hfirst).1
      subst hhead
      congr 1
      apply ih (List.pairwise_cons.1 hx).2 (List.pairwise_cons.1 hy).2
      intro k
      have hk := h k
      by_cases hxk : key x = k
      · simp only [List.filter_cons, hxk, decide_true, if_true] at hk
        exact (List.cons.inj hk).2
      · simpa only [List.filter_cons, hxk, decide_false, Bool.false_eq_true, if_false] using hk

end Keys

/-! ## Sorted by all that entries hold -/

section Entries

variable {α : Type} [Ord α] [Std.TransOrd α]

theorem pairwise_sortBy_compare (xs : List α) :
    (sortBy (fun a b => (compare a b).isLE) xs).Pairwise fun a b => (compare a b).isLE = true :=
  pairwise_sortBy_key id xs

variable [Std.LawfulEqOrd α] {xs ys : List α}

/-- A list sorted by a total order is determined by its entries. -/
theorem eq_of_perm_of_sorted (h : xs.Perm ys)
    (hx : xs.Pairwise fun a b => (compare a b).isLE = true)
    (hy : ys.Pairwise fun a b => (compare a b).isLE = true) : xs = ys :=
  eq_of_perm_of_sorted_key id h hx hy fun _ _ _ _ hab => hab

/-- Sorting by a total order forgets the order of the entries. -/
theorem sortBy_eq_of_perm (h : xs.Perm ys) :
    sortBy (fun a b => (compare a b).isLE) xs = sortBy (fun a b => (compare a b).isLE) ys :=
  eq_of_perm_of_sorted ((sortBy_perm xs).trans (h.trans (sortBy_perm ys).symm))
    (pairwise_sortBy_compare xs) (pairwise_sortBy_compare ys)

end Entries

end PodRules
