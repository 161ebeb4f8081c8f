namespace PodRules

structure Date where
  year : Int
  month : Nat
  day : Nat
  deriving DecidableEq, Repr

namespace Date

def isLeap (y : Int) : Bool := y % 4 = 0 && (y % 100 ≠ 0 || y % 400 = 0)

def monthLengths (leap : Bool) : List Nat :=
  [31, if leap then 29 else 28, 31, 30, 31, 30, 31, 31, 30, 31, 30, 31]

def daysBeforeYear (y : Int) : Int := 365 * y + (y + 3) / 4 - (y + 99) / 100 + (y + 399) / 400

def yearLength (leap : Bool) : Nat := if leap then 366 else 365

def isValid (d : Date) : Bool :=
  1 ≤ d.month && d.month ≤ 12 && 1 ≤ d.day &&
    d.day ≤ (monthLengths (isLeap d.year)).getD (d.month - 1) 0

def dayOfYear (d : Date) : Nat :=
  ((monthLengths (isLeap d.year)).take (d.month - 1)).foldr (· + ·) 0 + (d.day - 1)

def toDays (d : Date) : Int := daysBeforeYear d.year + d.dayOfYear

/-- The year that a day lies in. A mean year has 146097 / 400 days, which gives the year or the
one before it. -/
def yearOfDays (n : Int) : Int :=
  let guess := n * 400 / 146097
  if daysBeforeYear (guess + 1) ≤ n then guess + 1
  else if n < daysBeforeYear guess then guess - 1 else guess

def monthAndDay (m : Nat) : List Nat → Nat → Nat × Nat
  | [], n => (m, n + 1)
  | len :: rest, n => if n < len then (m, n + 1) else monthAndDay (m + 1) rest (n - len)

def ofDays (n : Int) : Date :=
  let y := yearOfDays n
  let (m, d) := monthAndDay 1 (monthLengths (isLeap y)) (n - daysBeforeYear y).toNat
  ⟨y, m, d⟩

theorem daysBeforeYear_succ (y : Int) :
    daysBeforeYear (y + 1) = daysBeforeYear y + yearLength (isLeap y) := by
  unfold daysBeforeYear yearLength isLeap
  by_cases h4 : y % 4 = 0 <;> by_cases h100 : y % 100 = 0 <;> by_cases h400 : y % 400 = 0 <;>
    simp [h4, h100, h400] <;> omega

theorem daysBeforeYear_le {y z : Int} (h : y ≤ z) : daysBeforeYear y ≤ daysBeforeYear z := by
  obtain ⟨k, rfl⟩ := Int.le.dest h
  clear h
  induction k with
  | zero => simp
  | succ k ih =>
    have := daysBeforeYear_succ (y + k)
    rw [show y + ((k + 1 : Nat) : Int) = y + k + 1 by omega]
    omega

/-- At most one year holds a day. -/
theorem year_unique {y z n : Int} (hy : daysBeforeYear y ≤ n) (hy' : n < daysBeforeYear (y + 1))
    (hz : daysBeforeYear z ≤ n) (hz' : n < daysBeforeYear (z + 1)) : y = z := by
  rcases Int.lt_trichotomy y z with h | h | h
  · have := daysBeforeYear_le (show y + 1 ≤ z by omega); omega
  · exact h
  · have := daysBeforeYear_le (show z + 1 ≤ y by omega); omega

theorem yearOfDays_eq {y n : Int} (hl : daysBeforeYear y ≤ n) (hr : n < daysBeforeYear (y + 1)) :
    yearOfDays n = y := by
  have low : daysBeforeYear (n * 400 / 146097 - 1) ≤ n := by unfold daysBeforeYear; omega
  have high : n < daysBeforeYear (n * 400 / 146097 + 2) := by unfold daysBeforeYear; omega
  unfold yearOfDays
  dsimp only
  split
  next h => exact year_unique h (by rw [Int.add_assoc]; exact high) hl hr
  next h =>
    split
    next h' => exact year_unique low (by rw [Int.sub_add_cancel]; exact h') hl hr
    next h' => exact year_unique (by omega) (by omega) hl hr

theorem monthAndDay_take (lens : List Nat) (m i d : Nat) (hi : i < lens.length)
    (hd : d < lens.getD i 0) : monthAndDay m lens ((lens.take i).foldr (· + ·) 0 + d) = (m + i, d + 1) := by
  induction lens generalizing m i with
  | nil => simp at hi
  | cons len rest ih =>
    cases i with
    | zero => simp at hd; simp [monthAndDay, hd]
    | succ i =>
      generalize hsum : (rest.take i).foldr (· + ·) 0 = sum
      have hlen : ¬ len + sum + d < len := by omega
      have hsub : len + sum + d - len = sum + d := by omega
      simp only [List.take_succ_cons, List.foldr_cons, hsum, monthAndDay, hlen, if_false, hsub]
      rw [← hsum]
      rw [ih (m + 1) i (by simpa using hi) (by simpa using hd)]
      simp [Nat.add_assoc, Nat.add_comm 1]

theorem dayOfYear_lt {d : Date} (h : d.isValid = true) :
    d.dayOfYear < yearLength (isLeap d.year) := by
  obtain ⟨y, m, dd⟩ := d
  simp only [isValid, Bool.and_eq_true, decide_eq_true_eq] at h
  obtain ⟨⟨⟨h1, h12⟩, hd1⟩, hd⟩ := h
  simp only [dayOfYear, yearLength]
  have hm : m = 1 ∨ m = 2 ∨ m = 3 ∨ m = 4 ∨ m = 5 ∨ m = 6 ∨ m = 7 ∨ m = 8 ∨ m = 9 ∨ m = 10 ∨
    m = 11 ∨ m = 12 := by omega
  generalize isLeap y = leap at hd ⊢
  cases leap <;> rcases hm with rfl | rfl | rfl | rfl | rfl | rfl | rfl | rfl | rfl | rfl |
    rfl | rfl <;> simp [monthLengths] at hd ⊢ <;> omega

theorem ofDays_toDays {d : Date} (h : d.isValid = true) : ofDays d.toDays = d := by
  have hy : yearOfDays d.toDays = d.year := by
    have hlt := dayOfYear_lt h
    refine yearOfDays_eq (by unfold toDays; omega) ?_
    rw [daysBeforeYear_succ]
    unfold toDays
    omega
  have hsub : (d.toDays - daysBeforeYear d.year).toNat = d.dayOfYear := by unfold toDays; omega
  unfold ofDays
  rw [hy]
  dsimp only
  rw [hsub]
  obtain ⟨y, m, dd⟩ := d
  simp only [isValid, Bool.and_eq_true, decide_eq_true_eq] at h
  obtain ⟨⟨⟨h1, h12⟩, hd1⟩, hd⟩ := h
  simp only [dayOfYear]
  rw [monthAndDay_take _ 1 (m - 1) (dd - 1) (by simp [monthLengths]; omega) (by omega)]
  simp only [Date.mk.injEq, true_and]
  omega

end Date

end PodRules
