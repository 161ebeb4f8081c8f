namespace PodRules

structure SortedSet (α : Type) [Ord α] where
  toList : List α
  ascending : toList.Pairwise (fun a b => compare a b = .lt)

namespace SortedSet

section Lists

variable {α : Type} [Ord α]

def insertInto (x : α) : List α → List α
  | [] => [x]
  | y :: ys =>
    match compare x y with
    | .lt => x :: y :: ys
    | .eq => y :: ys
    | .gt => y :: insertInto x ys

variable [Std.LawfulEqOrd α]

theorem mem_insertInto {x z : α} {ys : List α} : z ∈ insertInto x ys ↔ z = x ∨ z ∈ ys := by
  induction ys with
  | nil => simp [insertInto]
  | cons y ys ih =>
    simp only [insertInto]
    split
    next => simp
    next h => rw [Std.LawfulEqOrd.eq_of_compare h]; simp
    next => simp only [List.mem_cons, ih]; exact or_left_comm

variable [Std.TransOrd α]

theorem pairwise_insertInto (x : α) {ys : List α}
    (h : ys.Pairwise (fun a b => compare a b = .lt)) :
    (insertInto x ys).Pairwise (fun a b => compare a b = .lt) := by
  induction ys with
  | nil => simp [insertInto]
  | cons y ys ih =>
    have hc := List.pairwise_cons.1 h
    simp only [insertInto]
    split
    next hxy =>
      refine List.pairwise_cons.2 ⟨fun z hz => ?_, h⟩
      rcases List.mem_cons.1 hz with rfl | hz
      · exact hxy
      · exact Std.TransCmp.lt_trans hxy (hc.1 z hz)
    next => exact h
    next hxy =>
      refine List.pairwise_cons.2 ⟨fun z hz => ?_, ih hc.2⟩
      rcases mem_insertInto.1 hz with rfl | hz
      · exact Std.OrientedCmp.lt_of_gt hxy
      · exact hc.1 z hz

/-- An ascending list is determined by its members. -/
theorem eq_of_mem_iff {xs ys : List α} (hx : xs.Pairwise (fun a b => compare a b = .lt))
    (hy : ys.Pairwise (fun a b => compare a b = .lt)) (h : ∀ z, z ∈ xs ↔ z ∈ ys) : xs = ys := by
  induction xs generalizing ys with
  | nil =>
    cases ys with
    | nil => rfl
    | cons y ys => exact absurd ((h y).2 (List.mem_cons_self ..)) (by simp)
  | cons x xs ih =>
    cases ys with
    | nil => exact absurd ((h x).1 (List.mem_cons_self ..)) (by simp)
    | cons y ys =>
      have hxc := List.pairwise_cons.1 hx
      have hyc := List.pairwise_cons.1 hy
      have irrefl : ∀ a : α, compare a a ≠ .lt := fun a => by simp [Std.ReflCmp.compare_self]
      have hxy : x = y := by
        rcases List.mem_cons.1 ((h x).1 (List.mem_cons_self ..)) with e | hm
        · exact e
        rcases List.mem_cons.1 ((h y).2 (List.mem_cons_self ..)) with e | hm'
        · exact e.symm
        exact absurd (Std.TransCmp.lt_trans (hxc.1 y hm') (hyc.1 x hm)) (irrefl x)
      subst hxy
      congr 1
      refine ih hxc.2 hyc.2 fun z => ⟨fun hz => ?_, fun hz => ?_⟩
      · rcases List.mem_cons.1 ((h z).1 (List.mem_cons_of_mem _ hz)) with rfl | hm
        · exact absurd (hxc.1 z hz) (irrefl z)
        · exact hm
      · rcases List.mem_cons.1 ((h z).2 (List.mem_cons_of_mem _ hz)) with rfl | hm
        · exact absurd (hyc.1 z hz) (irrefl z)
        · exact hm

end Lists

variable {α : Type} [Ord α]

instance : Membership α (SortedSet α) := ⟨fun s x => x ∈ s.toList⟩

theorem mem_def {x : α} {s : SortedSet α} : x ∈ s ↔ x ∈ s.toList := Iff.rfl

def empty : SortedSet α := ⟨[], .nil⟩

instance : Inhabited (SortedSet α) := ⟨empty⟩
instance : EmptyCollection (SortedSet α) := ⟨empty⟩

theorem eq_of_toList {s t : SortedSet α} (h : s.toList = t.toList) : s = t := by
  cases s; cases t; cases h; rfl

instance [DecidableEq α] : DecidableEq (SortedSet α) := fun s t =>
  if h : s.toList = t.toList then .isTrue (eq_of_toList h) else .isFalse fun e => h (e ▸ rfl)

instance [DecidableEq α] (x : α) (s : SortedSet α) : Decidable (x ∈ s) :=
  inferInstanceAs (Decidable (x ∈ s.toList))

def contains [DecidableEq α] (s : SortedSet α) (x : α) : Bool := decide (x ∈ s)

def isEmpty (s : SortedSet α) : Bool := s.toList.isEmpty

def size (s : SortedSet α) : Nat := s.toList.length

def erase [DecidableEq α] (s : SortedSet α) (x : α) : SortedSet α :=
  ⟨s.toList.filter (· ≠ x), s.ascending.sublist List.filter_sublist⟩

@[simp] theorem not_mem_empty {z : α} : ¬ z ∈ (empty : SortedSet α) := by
  simp [mem_def, empty]

@[simp] theorem mem_erase [DecidableEq α] {s : SortedSet α} {x z : α} :
    z ∈ s.erase x ↔ z ∈ s ∧ z ≠ x := by
  simp [mem_def, erase]

@[simp] theorem contains_iff [DecidableEq α] {s : SortedSet α} {x : α} :
    s.contains x = true ↔ x ∈ s := by
  simp [contains]

variable [Std.TransOrd α] [Std.LawfulEqOrd α]

def insert (s : SortedSet α) (x : α) : SortedSet α :=
  ⟨insertInto x s.toList, pairwise_insertInto x s.ascending⟩

def ofList (xs : List α) : SortedSet α := xs.foldl insert empty

@[ext] theorem ext {s t : SortedSet α} (h : ∀ x, x ∈ s ↔ x ∈ t) : s = t :=
  eq_of_toList (eq_of_mem_iff s.ascending t.ascending h)

@[simp] theorem mem_insert {s : SortedSet α} {x z : α} : z ∈ s.insert x ↔ z = x ∨ z ∈ s :=
  mem_insertInto

theorem mem_foldl_insert {xs : List α} {s : SortedSet α} {z : α} :
    z ∈ xs.foldl insert s ↔ z ∈ s ∨ z ∈ xs := by
  induction xs generalizing s with
  | nil => simp
  | cons x xs ih =>
    simp only [List.foldl_cons, ih, mem_insert, List.mem_cons]
    constructor
    · rintro ((h | h) | h) <;> simp [h]
    · rintro (h | h | h) <;> simp [h]

@[simp] theorem mem_ofList {xs : List α} {z : α} : z ∈ ofList xs ↔ z ∈ xs := by
  simp [ofList, mem_foldl_insert]

end SortedSet

end PodRules
