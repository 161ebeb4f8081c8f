import PodRules.Time.Instant

namespace PodRules

namespace Date

/-! ## The date of a day -/

/-- The year of a day is the one within which the day falls. -/
theorem yearOfDays_le (n : Int) :
    daysBeforeYear (yearOfDays n) ≤ n ∧ n < daysBeforeYear (yearOfDays n + 1) := by
  -- A mean year has 146097 / 400 days, so the guess is off by one year at most.
  have hlow : daysBeforeYear (n * 400 / 146097 - 1) ≤ n := by unfold daysBeforeYear; omega
  have hhigh : n < daysBeforeYear (n * 400 / 146097 + 1 + 1) := by unfold daysBeforeYear; omega
  unfold yearOfDays
  dsimp only
  split
  next h => exact ⟨h, hhigh⟩
  next h =>
    split
    next h' => exact ⟨hlow, by rwa [Int.sub_add_cancel]⟩
    next h' => exact ⟨by omega, by omega⟩

/-- The month and the day of the month that a day of the year lies in, below the sum of all
months. -/
theorem monthAndDay_spec (lens : List Nat) (m r : Nat) (hr : r < lens.foldr (· + ·) 0) :
    ∃ i d, monthAndDay m lens r = (m + i, d + 1) ∧ i < lens.length ∧ d < lens.getD i 0 ∧
      (lens.take i).foldr (· + ·) 0 + d = r := by
  induction lens generalizing m r with
  | nil => exact absurd hr (Nat.not_lt_zero r)
  | cons len rest ih =>
    by_cases hlen : r < len
    · exact ⟨0, r, by simp [monthAndDay, hlen], by simp, by simpa using hlen, by simp⟩
    · have hrest : r - len < rest.foldr (· + ·) 0 := by
        rw [List.foldr_cons] at hr
        omega
      obtain ⟨i, d, hmd, hi, hd, hsum⟩ := ih (m + 1) (r - len) hrest
      refine ⟨i + 1, d, ?_, by simpa using hi, by simpa using hd, ?_⟩
      · rw [monthAndDay, if_neg hlen, hmd]
        rw [show m + 1 + i = m + (i + 1) by omega]
      · rw [List.take_succ_cons, List.foldr_cons]
        omega

/-- The months make up the year. -/
theorem foldr_monthLengths (leap : Bool) :
    (monthLengths leap).foldr (· + ·) 0 = yearLength leap := by
  cases leap <;> rfl

/-- A day number has a valid date, and is its number. -/
theorem ofDays_spec (n : Int) : (ofDays n).isValid = true ∧ (ofDays n).toDays = n := by
  obtain ⟨hlow, hhigh⟩ := yearOfDays_le n
  have hr : (n - daysBeforeYear (yearOfDays n)).toNat <
      (monthLengths (isLeap (yearOfDays n))).foldr (· + ·) 0 := by
    rw [foldr_monthLengths]
    rw [daysBeforeYear_succ] at hhigh
    omega
  obtain ⟨i, d, hmd, hi, hd, hsum⟩ := monthAndDay_spec _ 1 _ hr
  have hdate : ofDays n = ⟨yearOfDays n, 1 + i, d + 1⟩ := by
    unfold ofDays
    dsimp only
    rw [hmd]
  have hmonths : i < 12 := hi
  rw [hdate]
  constructor
  · simp only [isValid, Bool.and_eq_true, decide_eq_true_eq, Nat.add_sub_cancel_left]
    omega
  · simp only [toDays, dayOfYear, Nat.add_sub_cancel_left, Nat.add_sub_cancel, hsum]
    omega

end Date

namespace Instant

/-! ## Fields -/

theorem isBlank_of_isDigit {c : Char} (h : c.isDigit = true) : Text.isBlank c = false := by
  simp only [Char.isDigit, Bool.and_eq_true, decide_eq_true_eq, ge_iff_le] at h
  have hlow : 48 ≤ c.toNat := h.1
  have hhigh : c.toNat ≤ 57 := h.2
  simp only [Text.isBlank, Bool.or_eq_false_iff, Bool.and_eq_false_iff, decide_eq_false_iff_not]
  omega

theorem length_padded (width n : Nat) : (padded width n).length = width := by
  induction width generalizing n with
  | zero => rfl
  | succ width ih => simp [padded, ih]

theorem isDigit_of_mem_padded {width n : Nat} {c : Char} (h : c ∈ padded width n) :
    c.isDigit = true := by
  induction width generalizing n with
  | zero => simp [padded] at h
  | succ width ih =>
    rw [padded, List.mem_append, List.mem_singleton] at h
    rcases h with h | rfl
    · exact ih h
    · have hdigits : ∀ d < 10, (Nat.digitChar d).isDigit = true := by decide
      exact hdigits _ (Nat.mod_lt n (by decide))

/-- A padded number is read back, as long as it fits its width. -/
theorem ofDigitChars_padded {width n : Nat} (h : n < Nat.pow 10 width) :
    Nat.ofDigitChars 10 (padded width n) 0 = n := by
  induction width generalizing n with
  | zero =>
    obtain rfl : n = 0 := by simpa using h
    rfl
  | succ width ih =>
    have hrest : n / 10 < Nat.pow 10 width := by
      have hlimit : n < Nat.pow 10 width * 10 := h
      omega
    have hlast : (Nat.digitChar (n % 10)).toNat = 48 + n % 10 :=
      Nat.toNat_digitChar_of_lt_ten (Nat.mod_lt n (by decide))
    rw [padded, Nat.ofDigitChars_append, ih hrest]
    have hzero : '0'.toNat = 48 := rfl
    simp only [Nat.ofDigitChars, List.foldl_cons, List.foldl_nil, hlast, hzero]
    omega

/-- A number of some width begins with a digit. -/
theorem exists_head_padded {width : Nat} (hw : 0 < width) (n : Nat) :
    ∃ c cs, padded width n = c :: cs ∧ c.isDigit = true := by
  have hlen := length_padded width n
  cases hchars : padded width n with
  | nil =>
    rw [hchars, List.length_nil] at hlen
    omega
  | cons c cs =>
    have hc : c ∈ padded width n := hchars ▸ List.mem_cons_self ..
    exact ⟨c, cs, rfl, isDigit_of_mem_padded hc⟩

/-- A field of some digits is read, whatever follows it. -/
theorem number?_padded {width n : Nat} (hw : 0 < width) (h : n < Nat.pow 10 width) (rest : List Char) :
    number? width (padded width n ++ rest) = some (n, rest) := by
  have hlen := length_padded width n
  have htake : (padded width n ++ rest).take width = padded width n := by
    rw [List.take_append_of_le_length (by omega), List.take_of_length_le (by omega)]
  have hdigits : (padded width n).takeWhile Char.isDigit = padded width n := by
    have hall : ∀ c ∈ padded width n, c.isDigit = true := fun c hc => isDigit_of_mem_padded hc
    have hself : (padded width n ++ []).takeWhile Char.isDigit =
        padded width n ++ [].takeWhile Char.isDigit := List.takeWhile_append_of_pos hall
    simpa using hself
  have hne : padded width n ≠ [] := by
    obtain ⟨c, cs, hchars, -⟩ := exists_head_padded hw n
    rw [hchars]
    exact List.cons_ne_nil c cs
  have hdrop : (padded width n ++ rest).drop width = rest := by
    rw [List.drop_append_of_le_length (by omega), List.drop_of_length_le (by omega),
      List.nil_append]
  unfold number?
  simp [htake, hdigits, hne, ofDigitChars_padded h, hlen, hdrop]

theorem trimStart_of_not_isBlank {c : Char} (h : Text.isBlank c = false) (rest : List Char) :
    Text.trimStart (c :: rest) = c :: rest := by
  apply Text.trimStart_eq_self
  intro d hd
  obtain rfl : c = d := Option.some.inj hd
  exact h

theorem trimStart_padded {width : Nat} (hw : 0 < width) (n : Nat) (rest : List Char) :
    Text.trimStart (padded width n ++ rest) = padded width n ++ rest := by
  obtain ⟨c, cs, hchars, hc⟩ := exists_head_padded hw n
  rw [hchars]
  exact trimStart_of_not_isBlank (isBlank_of_isDigit hc) _

theorem field?_padded {low high n : Nat} (hl : low ≤ n) (hh : n ≤ high) (hb : high < 100)
    (rest : List Char) : field? low high (padded 2 n ++ rest) = some (n, rest) := by
  have hn : n < 100 := by omega
  have hnumber : number? 2 (padded 2 n ++ rest) = some (n, rest) :=
    number?_padded (by decide) hn rest
  unfold field?
  rw [trimStart_padded (by decide), hnumber]
  simp [hl, hh]

theorem mark?_self {c : Char} (h : Text.isBlank c = false) (rest : List Char) :
    mark? c (c :: rest) = some rest := by
  unfold mark?
  rw [trimStart_of_not_isBlank h]
  simp

theorem year?_yearChars {y : Int} (hy : 0 ≤ y ∧ y ≤ 9999) (rest : List Char) :
    year? (yearChars y ++ rest) = some (y, rest) := by
  have hn : y.toNat < 10000 := by omega
  have hnumber : number? 4 (padded 4 y.toNat ++ rest) = some (y.toNat, rest) :=
    number?_padded (by decide) hn rest
  have hyear : isYear y = true := by
    simp only [isYear, Bool.and_eq_true, decide_eq_true_eq]
    omega
  have hnat : ((y.toNat : Nat) : Int) = y := Int.toNat_of_nonneg hy.1
  obtain ⟨c, cs, hchars, hc⟩ := exists_head_padded (show 0 < 4 by decide) y.toNat
  have hsign : c ≠ '-' ∧ c ≠ '+' := by
    constructor <;> rintro rfl <;> exact absurd hc (by decide)
  unfold year? yearChars
  rw [if_pos hy, trimStart_padded (by decide)]
  rw [hchars, List.cons_append] at hnumber ⊢
  simp [hsign, hnumber, hnat, hyear]

/-! ## Whole texts -/

/-- An instant without its fraction of a second. Nanoseconds beyond a second are the leap second at
the end of a minute, and belong to the next second anywhere else. -/
def wholeSecond (t : Instant) : Instant :=
  if t.nanos < 1000000000 then ⟨t.seconds, 0⟩
  else if t.secondOfDay % 60 = 59 then ⟨t.seconds, 1000000000⟩
  else ⟨t.seconds + 1, 0⟩

/-- The date of an instant that was put together from a date and a time of day is that date. -/
theorem date_ofParts {d : Date} (hd : d.isValid = true) {time : Int} (hlow : 0 ≤ time)
    (hhigh : time < secondsPerDay) (nanos : Nat) : (ofParts d time nanos).date = d := by
  have hday : ((d.toDays - epochDay) * secondsPerDay + time) / secondsPerDay + epochDay =
      d.toDays := by
    unfold secondsPerDay at *
    omega
  unfold ofParts date
  rw [hday]
  exact Date.ofDays_toDays hd

/-- A written time of a day is read with its date; second number 60 is a leap second. -/
theorem ofChars?_fields {d : Date} (hy : 0 ≤ d.year ∧ d.year ≤ 9999) (hd : d.isValid = true)
    {hour minute second : Nat} (hh : hour ≤ 23) (hm : minute ≤ 59) (hs : second ≤ 60) :
    ofChars? (yearChars d.year ++ '-' :: padded 2 d.month ++ '-' :: padded 2 d.day ++ 'T' ::
        padded 2 hour ++ ':' :: padded 2 minute ++ ':' :: padded 2 second ++ ['Z']) =
      some (ofParts d (hour * 3600 + minute * 60 + min second 59)
        (if second = 60 then 1000000000 else 0)) := by
  have hdate := hd
  simp only [Date.isValid, Bool.and_eq_true, decide_eq_true_eq] at hdate
  obtain ⟨⟨⟨hmonth, hmonth'⟩, hday⟩, hday'⟩ := hdate
  have hlengths : ∀ leap, ∀ i < 12, (Date.monthLengths leap).getD i 0 ≤ 31 := by decide
  have hlength := hlengths (Date.isLeap d.year) (d.month - 1) (by omega)
  have hyear (t : Int) (nanos : Nat) (h0 : 0 ≤ t) (h1 : t < 86400) :
      isYear (ofParts d t nanos).date.year = true := by
    rw [date_ofParts hd h0 h1]
    simp only [isYear, Bool.and_eq_true, decide_eq_true_eq]
    omega
  have hsecond : ((second - (if second = 60 then 1 else 0) : Nat) : Int) = min second 59 := by
    split <;> omega
  have hnanos : (if second = 60 then 1 else 0) * 1000000000 =
      if second = 60 then 1000000000 else 0 := by
    split <;> rfl
  have hdash (rest : List Char) : mark? '-' ('-' :: rest) = some rest := mark?_self (by decide) rest
  have hcolon (rest : List Char) : mark? ':' (':' :: rest) = some rest := mark?_self (by decide) rest
  have hmonths := fun rest => field?_padded hmonth hmonth' (by decide) rest
  have hdays := fun rest => field?_padded hday (show d.day ≤ 31 by omega) (by decide) rest
  have hhours := fun rest => field?_padded (Nat.zero_le hour) hh (by decide) rest
  have hminutes := fun rest => field?_padded (Nat.zero_le minute) hm (by decide) rest
  have hseconds := fun rest => field?_padded (Nat.zero_le second) hs (by decide) rest
  unfold ofChars?
  simp only [List.append_assoc, List.cons_append]
  dsimp only [Option.bind_eq_bind]
  rw [year?_yearChars hy, Option.bind_some, hdash, Option.bind_some, hmonths, Option.bind_some,
    hdash, Option.bind_some, hdays, Option.bind_some]
  simp only [true_or, if_true, Option.bind_some]
  rw [hhours, Option.bind_some, hcolon, Option.bind_some, hminutes, Option.bind_some, hcolon,
    Option.bind_some, hseconds, Option.bind_some]
  have hend : fraction? ['Z'] = some (0, ['Z']) ∧ offset? (Text.trimStart ['Z']) = some (0, []) ∧
      Text.trimStart [] = [] := by decide
  rw [hend.1, Option.bind_some, hend.2.1, Option.bind_some, hend.2.2, hsecond, hnanos, hd]
  simp only [Int.sub_zero, Nat.zero_add]
  rw [hyear _ _ (by omega) (by omega)]
  rfl

/-- In a year of four digits the text of an instant is read back to the whole second. -/
theorem parse?_text {t : Instant} (hy : 0 ≤ t.date.year ∧ t.date.year ≤ 9999) :
    parse? t.text = some t.wholeSecond := by
  have hvalid : t.date.isValid = true := (Date.ofDays_spec _).1
  have hdays : t.date.toDays = t.seconds / secondsPerDay + epochDay := (Date.ofDays_spec _).2
  have hday : t.secondOfDay < 86400 := by
    unfold secondOfDay secondsPerDay
    omega
  have hseconds : (t.date.toDays - epochDay) * secondsPerDay + t.secondOfDay = t.seconds := by
    rw [hdays]
    unfold secondOfDay secondsPerDay
    omega
  have hhour : t.secondOfDay / 3600 ≤ 23 := by omega
  have hminute : t.secondOfDay / 60 % 60 ≤ 59 := by omega
  have hsecond : (t.secondOfDay % 60 + if t.nanos < 1000000000 then 0 else 1) ≤ 60 := by
    split <;> omega
  have hfields := ofChars?_fields hy hvalid hhour hminute hsecond
  rw [parse?, text, String.toList_ofList, chars, hfields]
  unfold ofParts wholeSecond
  by_cases hnanos : t.nanos < 1000000000
  · have hlow : t.secondOfDay % 60 + 0 ≠ 60 := by omega
    simp only [hnanos, if_true, hlow, if_false, Option.some.injEq, Instant.mk.injEq, and_true]
    omega
  · by_cases hleap : t.secondOfDay % 60 = 59
    · simp only [hnanos, hleap, if_false, if_true, Option.some.injEq, Instant.mk.injEq, and_true]
      omega
    · have hlow : t.secondOfDay % 60 + 1 ≠ 60 := by omega
      simp only [hnanos, hleap, hlow, if_false, Option.some.injEq, Instant.mk.injEq, and_true]
      omega

end Instant
end PodRules
