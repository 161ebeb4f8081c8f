namespace PodRules

structure SortedMap (κ : Type) (α : Type) [Ord κ] where
  entries : List (κ × α)
  ascending : entries.Pairwise (fun a b => compare a.1 b.1 = .lt)

namespace SortedMap

section Lists

variable {κ α : Type} [Ord κ]

def look (k : κ) : List (κ × α) → Option α
  | [] => none
  | (j, v) :: rest => if compare k j = .eq then some v else look k rest

def write (k : κ) (v : α) : List (κ × α) → List (κ × α)
  | [] => [(k, v)]
  | (j, w) :: rest =>
    match compare k j with
    | .lt => (k, v) :: (j, w) :: rest
    | .eq => (k, v) :: rest
    | .gt => (j, w) :: write k v rest

theorem fst_mem_write [Std.LawfulEqOrd κ] {k : κ} {v : α} {xs : List (κ × α)} {e : κ × α}
    (h : e ∈ write k v xs) : e.1 = k ∨ e ∈ xs := by
  induction xs with
  | nil => simp only [write, List.mem_singleton] at h; simp [h]
  | cons x xs ih =>
    simp only [write] at h
    split at h
    next => rcases List.mem_cons.1 h with rfl | h <;> simp_all
    next => rcases List.mem_cons.1 h with rfl | h <;> simp_all
    next =>
      rcases List.mem_cons.1 h with rfl | h
      · simp
      · rcases ih h with h | h <;> simp [h]

theorem pairwise_write [Std.TransOrd κ] [Std.LawfulEqOrd κ] (k : κ) (v : α) {xs : List (κ × α)}
    (h : xs.Pairwise (fun a b => compare a.1 b.1 = .lt)) :
    (write k v xs).Pairwise (fun a b => compare a.1 b.1 = .lt) := by
  induction xs with
  | nil => simp [write]
  | cons x xs ih =>
    have hc := List.pairwise_cons.1 h
    simp only [write]
    split
    next hkx =>
      refine List.pairwise_cons.2 ⟨fun z hz => ?_, h⟩
      rcases List.mem_cons.1 hz with rfl | hz
      · exact hkx
      · exact Std.TransCmp.lt_trans hkx (hc.1 z hz)
    next hkx =>
      have e := Std.LawfulEqOrd.eq_of_compare hkx
      exact List.pairwise_cons.2 ⟨fun z hz => e ▸ hc.1 z hz, hc.2⟩
    next hkx =>
      refine List.pairwise_cons.2 ⟨fun z hz => ?_, ih hc.2⟩
      rcases fst_mem_write hz with hz | hz
      · rw [hz]; exact Std.OrientedCmp.lt_of_gt hkx
      · exact hc.1 z hz

theorem look_eq_none_of_lt [Std.OrientedOrd κ] {k : κ} {xs : List (κ × α)}
    (h : ∀ e ∈ xs, compare k e.1 = .lt) : look k xs = none := by
  induction xs with
  | nil => rfl
  | cons x xs ih =>
    have hx := h x (List.mem_cons_self ..)
    simp [look, hx, ih fun e he => h e (List.mem_cons_of_mem _ he)]

theorem look_write [Std.TransOrd κ] [Std.LawfulEqOrd κ] (k j : κ) (v : α) (xs : List (κ × α)) :
    look j (write k v xs) = if compare j k = .eq then some v else look j xs := by
  induction xs with
  | nil => simp [write, look]
  | cons x xs ih =>
    simp only [write]
    split
    next => simp [look]
    next hkx =>
      have e := Std.LawfulEqOrd.eq_of_compare hkx
      by_cases h : compare j x.1 = .eq <;> simp [look, e, h]
    next hkx =>
      simp only [look, ih]
      by_cases h : compare j x.1 = .eq
      · have e := Std.LawfulEqOrd.eq_of_compare h
        subst e
        have : compare x.1 k ≠ .eq := by
          intro e'
          rw [@Std.OrientedCmp.eq_swap _ compare, hkx] at e'
          cases e'
        simp [this]
      · simp [h]

/-- A list with ascending keys is determined by its look-ups. -/
theorem eq_of_look [Std.TransOrd κ] [Std.LawfulEqOrd κ] {xs ys : List (κ × α)}
    (hx : xs.Pairwise (fun a b => compare a.1 b.1 = .lt))
    (hy : ys.Pairwise (fun a b => compare a.1 b.1 = .lt)) (h : ∀ k, look k xs = look k ys) :
    xs = ys := by
  induction xs generalizing ys with
  | nil =>
    cases ys with
    | nil => rfl
    | cons y ys => have := h y.1; simp [look, Std.ReflCmp.compare_self] at this
  | cons x xs ih =>
    cases ys with
    | nil => have := h x.1; simp [look, Std.ReflCmp.compare_self] at this
    | cons y ys =>
      have hxc := List.pairwise_cons.1 hx
      have hyc := List.pairwise_cons.1 hy
      have below {k : κ} {zs : List (κ × α)} {z : κ × α} (hk : compare k z.1 = .lt)
          (hz : ∀ e ∈ zs, compare z.1 e.1 = .lt) : look k (z :: zs) = none :=
        look_eq_none_of_lt fun e he => by
          rcases List.mem_cons.1 he with rfl | he
          · exact hk
          · exact Std.TransCmp.lt_trans hk (hz e he)
      have hxy : x.1 = y.1 := by
        cases hc : compare x.1 y.1 with
        | eq => exact Std.LawfulEqOrd.eq_of_compare hc
        | lt =>
          have hh := h x.1
          rw [below hc hyc.1] at hh
          simp [look, Std.ReflCmp.compare_self] at hh
        | gt =>
          have hh := h y.1
          rw [below (Std.OrientedCmp.lt_of_gt hc) hxc.1] at hh
          simp [look, Std.ReflCmp.compare_self] at hh
      have hv : x.2 = y.2 := by
        have hh := h x.1
        simpa [look, hxy, Std.ReflCmp.compare_self] using hh
      have e : x = y := Prod.ext hxy hv
      subst e
      congr 1
      refine ih hxc.2 hyc.2 fun k => ?_
      by_cases hk : compare k x.1 = .eq
      · have e := Std.LawfulEqOrd.eq_of_compare hk
        subst e
        rw [look_eq_none_of_lt hxc.1, look_eq_none_of_lt hyc.1]
      · simpa [look, hk] using h k

theorem look_filter [Std.LawfulEqOrd κ] [DecidableEq κ] (k j : κ) (xs : List (κ × α)) :
    look j (xs.filter (fun e => e.1 ≠ k)) = if j = k then none else look j xs := by
  induction xs with
  | nil => simp [look]
  | cons x xs ih =>
    simp only [List.filter_cons]
    by_cases hx : x.1 = k
    · subst hx
      simp only [ne_eq, not_true_eq_false, decide_false, Bool.false_eq_true, if_false]
      rw [ih]
      by_cases hj : j = x.1
      · simp [hj]
      · have : compare j x.1 ≠ .eq := fun e => hj (Std.LawfulEqOrd.eq_of_compare e)
        simp [hj, look, this]
    · simp only [ne_eq, hx, not_false_eq_true, decide_true, if_true, look, ih]
      by_cases hj : compare j x.1 = .eq
      · have e := Std.LawfulEqOrd.eq_of_compare hj
        subst e
        simp [hx]
      · simp [hj]

end Lists

variable {κ α : Type} [Ord κ]

theorem eq_of_entries {m n : SortedMap κ α} (h : m.entries = n.entries) : m = n := by
  cases m; cases n; cases h; rfl

instance [DecidableEq κ] [DecidableEq α] : DecidableEq (SortedMap κ α) := fun m n =>
  if h : m.entries = n.entries then .isTrue (eq_of_entries h) else .isFalse fun e => h (e ▸ rfl)

def empty : SortedMap κ α := ⟨[], .nil⟩

instance : Inhabited (SortedMap κ α) := ⟨empty⟩
instance : EmptyCollection (SortedMap κ α) := ⟨empty⟩

def get? (m : SortedMap κ α) (k : κ) : Option α := look k m.entries

def contains (m : SortedMap κ α) (k : κ) : Bool := (m.get? k).isSome

def isEmpty (m : SortedMap κ α) : Bool := m.entries.isEmpty

def size (m : SortedMap κ α) : Nat := m.entries.length

def keys (m : SortedMap κ α) : List κ := m.entries.map (·.1)

def values (m : SortedMap κ α) : List α := m.entries.map (·.2)

def filter (p : κ → α → Bool) (m : SortedMap κ α) : SortedMap κ α :=
  ⟨m.entries.filter (fun e => p e.1 e.2), m.ascending.sublist List.filter_sublist⟩

def erase [DecidableEq κ] (m : SortedMap κ α) (k : κ) : SortedMap κ α :=
  ⟨m.entries.filter (fun e => e.1 ≠ k), m.ascending.sublist List.filter_sublist⟩

def mapValues {β : Type} (f : κ → α → β) (m : SortedMap κ α) : SortedMap κ β :=
  ⟨m.entries.map (fun e => (e.1, f e.1 e.2)), by
    rw [List.pairwise_map]; exact m.ascending⟩

@[simp] theorem get?_empty (k : κ) : (empty : SortedMap κ α).get? k = none := rfl

theorem get?_erase [Std.LawfulEqOrd κ] [DecidableEq κ] (m : SortedMap κ α) (k j : κ) :
    (m.erase k).get? j = if j = k then none else m.get? j :=
  look_filter k j m.entries

variable [Std.TransOrd κ] [Std.LawfulEqOrd κ]

def insert (m : SortedMap κ α) (k : κ) (v : α) : SortedMap κ α :=
  ⟨write k v m.entries, pairwise_write k v m.ascending⟩

def ofList (es : List (κ × α)) : SortedMap κ α := es.foldl (fun m e => m.insert e.1 e.2) empty

@[ext] theorem ext {m n : SortedMap κ α} (h : ∀ k, m.get? k = n.get? k) : m = n :=
  eq_of_entries (eq_of_look m.ascending n.ascending h)

theorem get?_insert (m : SortedMap κ α) (k j : κ) (v : α) [DecidableEq κ] :
    (m.insert k v).get? j = if j = k then some v else m.get? j := by
  have h := look_write k j v m.entries
  by_cases hj : j = k
  · subst hj; simpa [get?, insert, Std.ReflCmp.compare_self] using h
  · have : compare j k ≠ .eq := fun e => hj (Std.LawfulEqOrd.eq_of_compare e)
    simpa [get?, insert, this, hj] using h

end SortedMap

end PodRules
