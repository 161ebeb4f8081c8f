import PodRules.Json.Parser
import PodRules.Json.Printer

/-!
What is written is read back, whatever follows it: an escaped string (`string?_escaped`), a whole
number (`value?_int`), and level by level of the depth any value that has one written form
(`readsBack`). Main statement: such a value is read back from its compact text (`parse?_text`).
-/

namespace PodRules.Json

def isNumbered (c : Char) : Bool :=
  decide (c.toNat < 0x20) && (shortEscape? c).isNone &&
    decide (c ∉ ['\x08', '\t', '\n', '\x0c', '\r'])

def pieceOf (c : Char) : Piece := if isNumbered c then .unit c.toNat else .char c

theorem unit?_control : ∀ n < 0x20,
    unit? '0' '0' (Nat.digitChar (n / 16)) (Nat.digitChar (n % 16)) = some n := by
  decide

theorem pieces?_quote (rest : List Char) : pieces? ('"' :: rest) = some ([], rest) := by
  rw [pieces?]

theorem pieces?_numbered (a b c d : Char) (n : Nat) (rest : List Char)
    (h : unit? a b c d = some n) :
    pieces? ('\\' :: 'u' :: a :: b :: c :: d :: rest) =
      (pieces? rest).map fun r => (.unit n :: r.1, r.2) := by
  rw [pieces?, h]
  cases pieces? rest <;> rfl

theorem pieces?_short (e c : Char) (rest : List Char) (hu : e ≠ 'u')
    (h : shortEscape? e = some c) :
    pieces? ('\\' :: e :: rest) = (pieces? rest).map fun r => (.char c :: r.1, r.2) := by
  rw [pieces?, h]
  · cases pieces? rest <;> rfl
  · rintro a b c d r rfl
    exact fun _ => hu rfl

theorem pieces?_plain (c : Char) (rest : List Char) (hq : c ≠ '"') (hs : c ≠ '\\')
    (hn : ¬ c.toNat < 0x20) :
    pieces? (c :: rest) = (pieces? rest).map fun r => (.char c :: r.1, r.2) := by
  rw [pieces?]
  · simp only [hs, hn, or_self, if_false]
    cases pieces? rest <;> rfl
  all_goals simp [hq, hs]

/-- One printed character is read as one piece, whichever of the three ways of escaping it has. -/
theorem pieces?_escapeChar (c : Char) (rest : List Char) :
    pieces? (escapeChar c ++ rest) = (pieces? rest).map fun r => (pieceOf c :: r.1, r.2) := by
  unfold escapeChar
  split
  next h => subst h; exact pieces?_short '"' '"' rest (by decide) rfl
  split
  next h => subst h; exact pieces?_short '\\' '\\' rest (by decide) rfl
  split
  next h => subst h; exact pieces?_short 'b' '\x08' rest (by decide) rfl
  split
  next h => subst h; exact pieces?_short 't' '\t' rest (by decide) rfl
  split
  next h => subst h; exact pieces?_short 'n' '\n' rest (by decide) rfl
  split
  next h => subst h; exact pieces?_short 'f' '\x0c' rest (by decide) rfl
  split
  next h => subst h; exact pieces?_short 'r' '\r' rest (by decide) rfl
  split
  next hq hs h8 ht hl hf hr hn =>
    -- A control character without a letter of its own.
    have hp : pieceOf c = .unit c.toNat := by
      have hslash : c ≠ '/' := by
        rintro rfl
        exact absurd hn (by decide)
      have hlow : c ≠ 'b' ∧ c ≠ 'f' ∧ c ≠ 'n' ∧ c ≠ 'r' ∧ c ≠ 't' := by
        refine ⟨?_, ?_, ?_, ?_, ?_⟩ <;> rintro rfl <;> exact absurd hn (by decide)
      simp [pieceOf, isNumbered, shortEscape?, *]
    rw [hp]
    exact pieces?_numbered _ _ _ _ _ rest (unit?_control _ hn)
  next hq hs h8 ht hl hf hr hn =>
    have hp : pieceOf c = .char c := by simp [pieceOf, isNumbered, hn]
    rw [hp]
    exact pieces?_plain c rest hq hs hn

theorem pieces?_flatMap (cs rest : List Char) :
    pieces? (cs.flatMap escapeChar ++ '"' :: rest) = some (cs.map pieceOf, rest) := by
  induction cs with
  | nil => exact pieces?_quote rest
  | cons c cs ih => simp [List.append_assoc, pieces?_escapeChar, ih]

theorem pieceChars?_pieceOf (c : Char) (ps : List Piece) :
    pieceChars? (pieceOf c :: ps) = (pieceChars? ps).map (c :: ·) := by
  unfold pieceOf
  split
  next h =>
    have hn : c.toNat < 0x20 := by simp [isNumbered] at h; exact h.1.1
    -- Its number is far below the surrogates, so it stands for itself.
    have hhigh : isHighSurrogate c.toNat = false := by simp [isHighSurrogate]; omega
    have hlow : isLowSurrogate c.toNat = false := by simp [isLowSurrogate]; omega
    conv => lhs; rw [pieceChars?.eq_def]
    simp [hhigh, hlow]
  next => rw [pieceChars?]

theorem pieceChars?_map (cs : List Char) : pieceChars? (cs.map pieceOf) = some cs := by
  induction cs with
  | nil => rfl
  | cons c cs ih => rw [List.map_cons, pieceChars?_pieceOf, ih, Option.map_some]

/-- A printed string is read back, and what follows it is left. -/
theorem string?_escaped (s : String) (rest : List Char) :
    string? (s.toList.flatMap escapeChar ++ '"' :: rest) = some (some s, rest) := by
  simp [string?, pieces?_flatMap, pieceChars?_map]

theorem skipSpace_of_not_isSpace {c : Char} (h : isSpace c = false) (cs : List Char) :
    skipSpace (c :: cs) = c :: cs := by
  simp [skipSpace, h]

theorem stringChars_append (s : String) (rest : List Char) :
    stringChars s ++ rest = '"' :: (s.toList.flatMap escapeChar ++ '"' :: rest) := by
  simp [stringChars]

theorem value?_string (fuel : Nat) (s : String) (rest : List Char) :
    value? (fuel + 1) (chars (.string s) ++ rest) = some (.string s, rest) := by
  rw [chars, stringChars_append, value?, string?_escaped]
  rfl

/-! ## Numbers -/

def Stops (rest : List Char) : Prop := ∀ c ∈ rest.head?, c = ',' ∨ c = ']' ∨ c = '\x7d'

theorem stops_cons {c : Char} (h : c = ',' ∨ c = ']' ∨ c = '\x7d') (rest : List Char) :
    Stops (c :: rest) := by
  intro d hd
  obtain rfl : c = d := Option.some.inj hd
  exact h

theorem isDigit_of_mem_natChars {n : Nat} {c : Char} (h : c ∈ natChars n) : c.isDigit = true :=
  Nat.isDigit_of_mem_toDigits (by decide) (by decide) h

/-- Only the number zero begins with a zero. -/
theorem head?_natChars {n : Nat} (hn : 0 < n) : (natChars n).head? ≠ some '0' := by
  induction n using Nat.strongRecOn with
  | ind n ih =>
    by_cases hlow : n < 10
    · have hchars : natChars n = [Nat.digitChar n] := Nat.toDigits_of_lt_base hlow
      have hsmall : ∀ d < 10, 0 < d → Nat.digitChar d ≠ '0' := by decide
      rw [hchars, List.head?_cons]
      exact fun he => hsmall n hlow hn (Option.some.inj he)
    · have hchars : natChars n = natChars (n / 10) ++ [Nat.digitChar (n % 10)] :=
        Nat.toDigits_of_base_le (by decide) (by omega)
      have hprefix : (natChars (n / 10)).head? ≠ some '0' := ih (n / 10) (by omega) (by omega)
      rw [hchars, List.head?_append]
      cases hhead : (natChars (n / 10)).head? with
      | none => exact absurd (List.head?_eq_none_iff.1 hhead) Nat.toDigits_ne_nil
      | some c => rwa [hhead] at hprefix

/-- A run of digits ends where a value may end, so nothing after a number is taken for a part of
it. -/
theorem digitRun?_natChars (n : Nat) {rest : List Char} (h : Stops rest) :
    digitRun? (natChars n ++ rest) = some (natChars n, rest) := by
  have hdigits : ∀ c ∈ natChars n, c.isDigit = true := fun c hc => isDigit_of_mem_natChars hc
  have hstop : rest.takeWhile Char.isDigit = [] ∧ rest.dropWhile Char.isDigit = rest := by
    cases rest with
    | nil => exact ⟨rfl, rfl⟩
    | cons c rest =>
      have hc : c.isDigit = false := by
        rcases h c rfl with rfl | rfl | rfl <;> decide
      simp [hc]
  have hne : natChars n ≠ [] := Nat.toDigits_ne_nil
  unfold digitRun?
  rw [List.takeWhile_append_of_pos hdigits, List.dropWhile_append_of_pos hdigits, hstop.1, hstop.2,
    List.append_nil]
  simp [hne]

theorem magnitude?_natChars {negative : Bool} {n : Nat} (hn : negative = true → 0 < n)
    {rest : List Char} (h : Stops rest) :
    magnitude? negative (natChars n ++ rest) =
      some (.int (if negative then -(n : Int) else n), rest) := by
  have hfraction : fraction? rest = some ([], rest) := by
    cases rest with
    | nil => rfl
    | cons c rest =>
      rcases h c rfl with rfl | rfl | rfl <;> rfl
  have hexponent : exponent? rest = some (none, rest) := by
    cases rest with
    | nil => rfl
    | cons c rest =>
      rcases h c rfl with rfl | rfl | rfl <;> rfl
  have hzero : ¬ ((natChars n).head? = some '0' ∧ (natChars n).length > 1) := by
    intro hlead
    obtain ⟨hhead, hlen⟩ := hlead
    by_cases hpos : 0 < n
    · exact head?_natChars hpos hhead
    · obtain rfl : n = 0 := by omega
      exact absurd hlen (by decide)
  have hvalue : Nat.ofDigitChars 10 (natChars n) 0 = n :=
    Nat.ofDigitChars_toDigits (by decide) (by decide)
  have hsign : ¬ (negative = true ∧ n = 0) := by
    intro hneg
    have := hn hneg.1
    omega
  unfold magnitude?
  rw [digitRun?_natChars n h]
  simp [hzero, hfraction, hexponent, hvalue, hsign]

/-- A printed number starts with a digit; that is how the reader knows it from other values. -/
theorem exists_head_natChars (n : Nat) :
    ∃ c cs, natChars n = c :: cs ∧ c.isDigit = true := by
  cases hchars : natChars n with
  | nil => exact absurd hchars Nat.toDigits_ne_nil
  | cons c cs =>
    exact ⟨c, cs, rfl, isDigit_of_mem_natChars (n := n) (by simp [hchars])⟩

theorem value?_number (fuel : Nat) {c : Char} (cs : List Char) (h : c.isDigit = true ∨ c = '-') :
    value? (fuel + 1) (c :: cs) = number? (c :: cs) := by
  have hne : c ≠ 'n' ∧ c ≠ 't' ∧ c ≠ 'f' ∧ c ≠ '"' ∧ c ≠ '[' ∧ c ≠ '\x7b' := by
    rcases h with h | rfl
    · refine ⟨?_, ?_, ?_, ?_, ?_, ?_⟩ <;> rintro rfl <;> exact absurd h (by decide)
    · decide
  obtain ⟨hn, ht, hf, hq, ha, ho⟩ := hne
  rw [value?]
  all_goals simp [hn, ht, hf, hq, ha, ho]

/-- A printed integer is read back, its sign included. -/
theorem value?_int (fuel : Nat) (i : Int) {rest : List Char} (h : Stops rest) :
    value? (fuel + 1) (intChars i ++ rest) = some (.int i, rest) := by
  cases i with
  | ofNat n =>
    obtain ⟨c, cs, hchars, hc⟩ := exists_head_natChars n
    have hne : c ≠ '-' := by
      rintro rfl
      exact absurd hc (by decide)
    have hnumber : number? (natChars n ++ rest) = magnitude? false (natChars n ++ rest) := by
      rw [hchars, List.cons_append, number?]
      simp [hne]
    calc value? (fuel + 1) (natChars n ++ rest) = number? (natChars n ++ rest) := by
          rw [hchars]
          exact value?_number fuel _ (Or.inl hc)
      _ = some (.int (Int.ofNat n), rest) := by
          rw [hnumber]
          exact magnitude?_natChars (by simp) h
  | negSucc n =>
    calc value? (fuel + 1) ('-' :: natChars (n + 1) ++ rest)
        = magnitude? true (natChars (n + 1) ++ rest) := value?_number fuel _ (Or.inr rfl)
      _ = some (.int (Int.negSucc n), rest) := magnitude?_natChars (fun _ => Nat.succ_pos n) h

/-! ## Whole values -/

mutual

def isPlain : Json → Bool
  | .decimal _ _ _ => false
  | .illFormed => false
  | .array items => itemsPlain items
  | .object ms => membersPlain ms
  | _ => true

def itemsPlain : List Json → Bool
  | [] => true
  | j :: js => isPlain j && itemsPlain js

def membersPlain : List (String × Json) → Bool
  | [] => true
  | (_, j) :: ms => isPlain j && membersPlain ms

end

/-- A written value begins with a mark of its own, which is neither a blank nor the end of a list. -/
theorem exists_head_chars {j : Json} (hj : j.isPlain = true) :
    ∃ c cs, j.chars = c :: cs ∧ isSpace c = false ∧ c ≠ ']' := by
  cases j with
  | null => exact ⟨_, _, by rw [chars], by decide, by decide⟩
  | bool b => cases b <;> exact ⟨_, _, by rw [chars], by decide, by decide⟩
  | int i =>
    cases i with
    | ofNat n =>
      obtain ⟨c, cs, hchars, hc⟩ := exists_head_natChars n
      refine ⟨c, cs, by rw [chars, intChars, hchars], ?_, ?_⟩
      · rw [Bool.eq_false_iff]
        intro hspace
        simp only [isSpace, Bool.or_eq_true, decide_eq_true_eq] at hspace
        rcases hspace with ((rfl | rfl) | rfl) | rfl <;> exact absurd hc (by decide)
      · rintro rfl
        exact absurd hc (by decide)
    | negSucc n => exact ⟨'-', _, by rw [chars, intChars], by decide, by decide⟩
  | decimal => simp [isPlain] at hj
  | string s => exact ⟨'"', _, by rw [chars, stringChars], by decide, by decide⟩
  | array items =>
    cases items with
    | nil => exact ⟨_, _, by rw [chars], by decide, by decide⟩
    | cons => exact ⟨'[', _, by rw [chars, List.cons_append], by decide, by decide⟩
  | object ms =>
    cases ms with
    | nil => exact ⟨_, _, by rw [chars], by decide, by decide⟩
    | cons m ms => exact ⟨'\x7b', _, by rw [chars, List.cons_append, List.cons_append], by decide, by decide⟩
  | illFormed => simp [isPlain] at hj

/-- No value has an empty text, so the fuel left for the parts of a value is less than its own. -/
theorem length_chars_pos {j : Json} (hj : j.isPlain = true) : 0 < j.chars.length := by
  obtain ⟨c, cs, hchars, -, -⟩ := exists_head_chars hj
  rw [hchars]
  exact Nat.succ_pos _

theorem length_itemChars_pos (js : List Json) : 0 < (itemChars js).length := by
  cases js <;> simp [itemChars]

theorem length_memberChars_pos (ms : List (String × Json)) : 0 < (memberChars ms).length := by
  cases ms <;> simp [memberChars]

theorem stops_itemChars (js : List Json) (rest : List Char) : Stops (itemChars js ++ rest) := by
  cases js with
  | nil => exact stops_cons (by simp) rest
  | cons j js => exact stops_cons (by simp) _

theorem stops_memberChars (ms : List (String × Json)) (rest : List Char) :
    Stops (memberChars ms ++ rest) := by
  cases ms with
  | nil => exact stops_cons (by simp) rest
  | cons m ms => exact stops_cons (by simp) _

/-- A value stands right behind the mark before it. -/
theorem skipSpace_chars {j : Json} (hj : j.isPlain = true) (rest : List Char) :
    skipSpace (j.chars ++ rest) = j.chars ++ rest := by
  obtain ⟨c, cs, hchars, hspace, -⟩ := exists_head_chars hj
  rw [hchars]
  exact skipSpace_of_not_isSpace hspace _

theorem ofNamed_some (ms : List (String × Json)) :
    ofNamed (ms.map fun m => (some m.1, m.2)) = .object ms := by
  have hms : (ms.map fun m => (some m.1, m.2)).mapM
      (fun m : Option String × Json => m.1.map fun k => (k, m.2)) = some ms := by
    induction ms with
    | nil => rfl
    | cons m ms ih =>
      rw [List.map_cons, List.mapM_cons, ih]
      rfl
  rw [ofNamed, hms]

/-- Within a depth, plain values, the items of an array from one of them on and the members of an
object from one of them on are read back, whatever follows. Two levels of the depth take at least a
character. -/
structure ReadsBack (fuel : Nat) : Prop where
  value : ∀ (j : Json) (rest : List Char), j.isPlain = true → 2 * j.chars.length ≤ fuel →
    Stops rest → value? fuel (j.chars ++ rest) = some (j, rest)
  items : ∀ (j : Json) (js : List Json) (rest : List Char), j.isPlain = true →
    itemsPlain js = true → 2 * (j.chars.length + (itemChars js).length) ≤ fuel →
    items? fuel (j.chars ++ (itemChars js ++ rest)) = some (j :: js, rest)
  members : ∀ (m : String × Json) (ms : List (String × Json)) (rest : List Char),
    m.2.isPlain = true → membersPlain ms = true →
    2 * (m.2.chars.length + (memberChars ms).length) ≤ fuel →
    members? fuel (stringChars m.1 ++ ':' :: (m.2.chars ++ (memberChars ms ++ rest))) =
      some ((m :: ms).map fun m => (some m.1, m.2), rest)

theorem readsBack_zero : ReadsBack 0 := by
  constructor
  · intro j rest hj hf
    have := length_chars_pos hj
    omega
  · intro j js rest hj _ hf
    have := length_chars_pos hj
    omega
  · intro m ms rest hm _ hf
    have := length_chars_pos hm
    omega

variable {n : Nat}

/-- An array that is not empty is read by reading its items. -/
theorem ReadsBack.array_step (h : ReadsBack n) {j : Json} {js : List Json} (hj : j.isPlain = true)
    (hjs : itemsPlain js = true) (hf : 2 * (j.chars.length + (itemChars js).length) ≤ n)
    (rest : List Char) :
    value? (n + 1) ('[' :: (j.chars ++ (itemChars js ++ rest))) = some (.array (j :: js), rest) := by
  obtain ⟨c, cs, hchars, hspace, hne⟩ := exists_head_chars hj
  have hitems := h.items j js rest hj hjs hf
  rw [hchars, List.cons_append] at hitems ⊢
  rw [value?, skipSpace_of_not_isSpace hspace]
  -- The first item is no bracket that would close an empty array.
  split
  next heq => exact absurd (List.cons.inj heq).1 hne
  next =>
    rw [hitems]
    rfl

/-- An object that is not empty is read by reading its members. -/
theorem ReadsBack.object_step (h : ReadsBack n) {m : String × Json} {ms : List (String × Json)}
    (hm : m.2.isPlain = true) (hms : membersPlain ms = true)
    (hf : 2 * (m.2.chars.length + (memberChars ms).length) ≤ n) (rest : List Char) :
    value? (n + 1) ('\x7b' :: (stringChars m.1 ++ ':' :: (m.2.chars ++ (memberChars ms ++ rest)))) =
      some (.object (m :: ms), rest) := by
  have hmembers := h.members m ms rest hm hms hf
  rw [stringChars_append] at hmembers ⊢
  rw [value?, skipSpace_of_not_isSpace (by decide)]
  change ((members? n ('"' :: _)).bind fun p => some (ofNamed p.1, p.2)) = _
  rw [hmembers, Option.bind_some, ofNamed_some]

/-- One more step of fuel reads a value, given that its parts are read. -/
theorem ReadsBack.value_step (h : ReadsBack n) {j : Json} (hj : j.isPlain = true)
    (hf : 2 * j.chars.length ≤ n + 1) {rest : List Char} (hrest : Stops rest) :
    value? (n + 1) (j.chars ++ rest) = some (j, rest) := by
  cases j with
  | null => rw [chars]; rfl
  | bool b => cases b <;> rw [chars] <;> rfl
  | int i =>
    rw [chars]
    exact value?_int n i hrest
  | decimal => simp [isPlain] at hj
  | string s => exact value?_string n s rest
  | array items =>
    cases items with
    | nil => rw [chars]; rfl
    | cons j js =>
      have hplain : isPlain j = true ∧ itemsPlain js = true := by
        simpa [isPlain, itemsPlain] using hj
      have hlen : 2 * (j.chars.length + (itemChars js).length) ≤ n := by
        simp only [chars, List.length_cons, List.length_append] at hf
        omega
      rw [chars, List.cons_append, List.cons_append, List.append_assoc]
      exact h.array_step hplain.1 hplain.2 hlen rest
  | object ms =>
    cases ms with
    | nil => rw [chars]; rfl
    | cons m ms =>
      have hplain : isPlain m.2 = true ∧ membersPlain ms = true := by
        simpa [isPlain, membersPlain] using hj
      have hlen : 2 * (m.2.chars.length + (memberChars ms).length) ≤ n := by
        simp only [chars, List.length_cons, List.length_append] at hf
        omega
      have hobject := h.object_step hplain.1 hplain.2 hlen rest
      rw [chars]
      simpa using hobject
  | illFormed => simp [isPlain] at hj

/-- One more step of fuel reads an item and the items that follow. -/
theorem ReadsBack.items_step (h : ReadsBack n) {j : Json} {js : List Json} (hj : j.isPlain = true)
    (hjs : itemsPlain js = true) (hf : 2 * (j.chars.length + (itemChars js).length) ≤ n + 1)
    (rest : List Char) :
    items? (n + 1) (j.chars ++ (itemChars js ++ rest)) = some (j :: js, rest) := by
  have hpos := length_itemChars_pos js
  have hvalue := h.value j (itemChars js ++ rest) hj (by omega) (stops_itemChars js rest)
  rw [items?, hvalue]
  cases js with
  | nil => rfl
  | cons i is =>
    have hplain : isPlain i = true ∧ itemsPlain is = true := by
      simpa [itemsPlain] using hjs
    have hlen : 2 * (i.chars.length + (itemChars is).length) ≤ n := by
      have := length_chars_pos hj
      simp only [itemChars, List.length_cons, List.length_append] at hf
      omega
    have hskip : skipSpace (itemChars (i :: is) ++ rest) =
        ',' :: (i.chars ++ (itemChars is ++ rest)) := by
      rw [itemChars, List.cons_append, List.cons_append, List.append_assoc]
      exact skipSpace_of_not_isSpace (by decide) _
    have hitems := h.items i is rest hplain.1 hplain.2 hlen
    simp only [Option.bind_eq_bind, Option.bind_some, hskip, skipSpace_chars hplain.1, hitems]
    rfl

/-- One more step of fuel reads a member and the members that follow. -/
theorem ReadsBack.members_step (h : ReadsBack n) {m : String × Json} {ms : List (String × Json)}
    (hm : m.2.isPlain = true) (hms : membersPlain ms = true)
    (hf : 2 * (m.2.chars.length + (memberChars ms).length) ≤ n + 1) (rest : List Char) :
    members? (n + 1) (stringChars m.1 ++ ':' :: (m.2.chars ++ (memberChars ms ++ rest))) =
      some ((m :: ms).map fun m => (some m.1, m.2), rest) := by
  have hpos := length_memberChars_pos ms
  have hvalue := h.value m.2 (memberChars ms ++ rest) hm (by omega) (stops_memberChars ms rest)
  have hcolon (tail : List Char) : skipSpace (':' :: tail) = ':' :: tail :=
    skipSpace_of_not_isSpace (by decide) tail
  rw [stringChars_append, members?, string?_escaped]
  simp only [Option.bind_eq_bind, Option.bind_some, hcolon, skipSpace_chars hm, hvalue]
  cases ms with
  | nil => rfl
  | cons m' ms =>
    have hplain : isPlain m'.2 = true ∧ membersPlain ms = true := by
      simpa [membersPlain] using hms
    have hlen : 2 * (m'.2.chars.length + (memberChars ms).length) ≤ n := by
      have := length_chars_pos hm
      simp only [memberChars, List.length_cons, List.length_append] at hf
      omega
    have hnext : memberChars (m' :: ms) ++ rest =
        ',' :: (stringChars m'.1 ++ ':' :: (m'.2.chars ++ (memberChars ms ++ rest))) := by
      simp [memberChars]
    have hskip : skipSpace (stringChars m'.1 ++ ':' :: (m'.2.chars ++ (memberChars ms ++ rest))) =
        stringChars m'.1 ++ ':' :: (m'.2.chars ++ (memberChars ms ++ rest)) := by
      rw [stringChars_append]
      exact skipSpace_of_not_isSpace (by decide) _
    have hmembers := h.members m' ms rest hplain.1 hplain.2 hlen
    rw [hnext, skipSpace_of_not_isSpace (by decide)]
    simp only [hskip, hmembers]
    rfl

/-- With fuel for twice its length, every plain value is read back from its text. -/
theorem readsBack (fuel : Nat) : ReadsBack fuel := by
  induction fuel with
  | zero => exact readsBack_zero
  | succ n ih =>
    constructor
    · intro j rest hj hf hrest
      exact ih.value_step hj hf hrest
    · intro j js rest hj hjs hf
      exact ih.items_step hj hjs hf rest
    · intro m ms rest hm hms hf
      exact ih.members_step hm hms hf rest

/-- A plain value is read back from its compact text. -/
theorem parse?_text {j : Json} (hj : j.isPlain = true) : parse? j.text = some j := by
  have hchars : j.text.toList = j.chars := by simp [text]
  have hskip : skipSpace j.chars = j.chars := by
    simpa using skipSpace_chars hj []
  have hvalue : value? (2 * j.chars.length + 2) j.chars = some (j, []) := by
    simpa using (readsBack _).value j [] hj (by omega) (by simp [Stops])
  rw [parse?, hchars, hskip, hvalue]
  rfl

end PodRules.Json
