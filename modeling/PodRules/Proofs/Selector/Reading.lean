import PodRules.Proofs.Selector.Matching

/-!
Reading queries back. A query is a row of clauses with commas between them, in which keys and
values stand as they are. Seven rules for keys and values make every clause end where a reader
takes it to end, so that selectors with one query are decided alike. Main statement: for a choice
of these rules, one query means one selection for all selectors that keep to them exactly if none
of the seven is missing (`query_determines_selection_iff`).
-/

namespace PodRules

inductive Clause
  | label (key value : String)
  | term (t : Term)
  deriving DecidableEq, Repr

namespace Clause

def text : Clause → String
  | label key value => key ++ "=" ++ value
  | term t => t.text

def holds (labels : SortedMap String String) : Clause → Bool
  | label key value => labels.get? key = some value
  | term t => t.holds labels

end Clause

namespace LabelSelector

def clauses (s : LabelSelector) (ts : List Term) : List Clause :=
  s.labelPairs.map (fun p => .label p.1 p.2) ++ ts.map .term

/-- A query is the texts of the clauses, separated by commas. -/
theorem query?_eq_ok_iff {s : LabelSelector} {q : String} :
    s.query? = .ok q ↔ ∃ ts, Requirement.terms? s.requirements = .ok ts ∧
      q = String.intercalate "," ((s.clauses ts).map Clause.text) := by
  have htext (ts : List Term) : (s.clauses ts).map Clause.text =
      s.labelPairs.map (fun p => p.1 ++ "=" ++ p.2) ++ ts.map Term.text := by
    rw [clauses, List.map_append, List.map_map, List.map_map]
    rfl
  unfold query?
  cases Requirement.terms? s.requirements with
  | error e => simp
  | ok ts => simp [htext, eq_comm]

theorem matches?_eq_clauses {s : LabelSelector} {ts : List Term}
    (h : Requirement.terms? s.requirements = .ok ts) (labels : SortedMap String String) :
    s.matches? labels = .ok ((s.clauses ts).all (Clause.holds labels)) := by
  rw [matches?_of_terms? h, clauses, List.all_append, List.all_map, List.all_map]
  rfl

end LabelSelector

/-! ## Rules for keys and values -/

inductive TextRule
  | keyNotEmpty
  | keyNotNegated
  | keyWithoutComma
  | keyWithoutEquals
  | keyWithoutSpace
  | valueWithoutComma
  | valueWithoutBracket
  deriving DecidableEq, Repr

namespace TextRule

def allowsKey (key : String) : TextRule → Bool
  | keyNotEmpty => key ≠ ""
  | keyNotNegated => key.toList.head? ≠ some '!'
  | keyWithoutComma => ',' ∉ key.toList
  | keyWithoutEquals => '=' ∉ key.toList
  | keyWithoutSpace => ' ' ∉ key.toList
  | _ => true

def allowsValue (value : String) : TextRule → Bool
  | valueWithoutComma => ',' ∉ value.toList
  | valueWithoutBracket => ')' ∉ value.toList
  | _ => true

end TextRule

def LabelSelector.KeepsTo (s : LabelSelector) (rule : TextRule) : Prop :=
  (∀ p ∈ s.labelPairs, rule.allowsKey p.1 ∧ rule.allowsValue p.2) ∧
    ∀ r ∈ s.requirements, rule.allowsKey r.key ∧ ∀ v ∈ r.values.getD [], rule.allowsValue v

instance (s : LabelSelector) (rule : TextRule) : Decidable (s.KeepsTo rule) :=
  inferInstanceAs (Decidable ((∀ p ∈ s.labelPairs, rule.allowsKey p.1 ∧ rule.allowsValue p.2) ∧
    ∀ r ∈ s.requirements, rule.allowsKey r.key ∧ ∀ v ∈ r.values.getD [], rule.allowsValue v))

structure PlainKey (key : String) : Prop where
  nonempty : key.toList ≠ []
  head : key.toList.head? ≠ some '!'
  comma : ',' ∉ key.toList
  equals : '=' ∉ key.toList
  space : ' ' ∉ key.toList

structure PlainValue (value : String) : Prop where
  comma : ',' ∉ value.toList
  bracket : ')' ∉ value.toList

/-- A key that keeps to the rules is told apart from all that stands around it. -/
theorem plainKey_of_rules {key : String} (h : ∀ rule : TextRule, rule.allowsKey key) :
    PlainKey key where
  nonempty := by
    have hkey : key ≠ "" := of_decide_eq_true (h .keyNotEmpty)
    exact fun hnil => hkey (String.toList_eq_nil_iff.1 hnil)
  head := of_decide_eq_true (h .keyNotNegated)
  comma := of_decide_eq_true (h .keyWithoutComma)
  equals := of_decide_eq_true (h .keyWithoutEquals)
  space := of_decide_eq_true (h .keyWithoutSpace)

theorem plainValue_of_rules {value : String} (h : ∀ rule : TextRule, rule.allowsValue value) :
    PlainValue value where
  comma := of_decide_eq_true (h .valueWithoutComma)
  bracket := of_decide_eq_true (h .valueWithoutBracket)

namespace Clause

inductive Plain : Clause → Prop
  | label {key value : String} (hkey : PlainKey key) (hvalue : PlainValue value) :
      Plain (label key value)
  | oneOf {key : String} {values : List String} (hkey : PlainKey key) (hne : values ≠ [])
      (hvalues : ∀ v ∈ values, PlainValue v) : Plain (term (.oneOf key values))
  | noneOf {key : String} {values : List String} (hkey : PlainKey key) (hne : values ≠ [])
      (hvalues : ∀ v ∈ values, PlainValue v) : Plain (term (.noneOf key values))
  | present {key : String} (hkey : PlainKey key) : Plain (term (.present key))
  | absent {key : String} (hkey : PlainKey key) : Plain (term (.absent key))

end Clause

theorem LabelSelector.plain_of_mem_clauses {s : LabelSelector} {ts : List Term}
    (h : Requirement.terms? s.requirements = .ok ts) (hrules : ∀ rule, s.KeepsTo rule) :
    ∀ c ∈ s.clauses ts, c.Plain := by
  intro c hc
  rcases List.mem_append.1 hc with hc | hc
  · obtain ⟨p, hp, rfl⟩ := List.mem_map.1 hc
    exact .label (plainKey_of_rules fun rule => ((hrules rule).1 p hp).1)
      (plainValue_of_rules fun rule => ((hrules rule).1 p hp).2)
  · obtain ⟨t, ht, rfl⟩ := List.mem_map.1 hc
    obtain ⟨r, hr, hden⟩ := Requirement.exists_denotes_of_mem (Requirement.terms?_eq_ok_iff.1 h) ht
    have hkey : PlainKey r.key := plainKey_of_rules fun rule => ((hrules rule).2 r hr).1
    have hvalues : ∀ v ∈ r.values.getD [], PlainValue v := fun v hv =>
      plainValue_of_rules fun rule => ((hrules rule).2 r hr).2 v hv
    cases hden with
    | oneOf hne => exact .oneOf hkey hne hvalues
    | noneOf hne => exact .noneOf hkey hne hvalues
    | present => exact .present hkey
    | absent => exact .absent hkey

/-! ## Reading a clause -/

section

variable {p : Char → Bool} {xs ys rest : List Char}

theorem takeWhile_append_stop (hxs : ∀ c ∈ xs, p c = true) (hys : ∀ c ∈ ys.head?, p c = false) :
    (xs ++ ys).takeWhile p = xs := by
  rw [List.takeWhile_append_of_pos hxs]
  cases ys with
  | nil => simp
  | cons c ys => simp [hys c rfl]

theorem dropWhile_append_stop (hxs : ∀ c ∈ xs, p c = true) (hys : ∀ c ∈ ys.head?, p c = false) :
    (xs ++ ys).dropWhile p = ys := by
  rw [List.dropWhile_append_of_pos hxs]
  cases ys with
  | nil => rfl
  | cons c ys => simp [hys c rfl]

theorem intercalate_cons (sep : Char) (w : List Char) (ws : List (List Char)) :
    [sep].intercalate (w :: ws) = w ++ ws.flatMap (sep :: ·) := by
  induction ws generalizing w with
  | nil => simp
  | cons v ws ih => simp [List.intercalate_cons_cons, ih]

end

namespace Clause

variable {c : Clause} {key : String} {rest : List Char}

def isKeyChar (c : Char) : Bool := c ≠ ',' && c ≠ '=' && c ≠ ' '

def readValues (cs : List Char) : List String := (cs.splitOn ',').map String.ofList

def readAfter (key : String) : List Char → Clause × List Char
  | '=' :: rest =>
    (label key (.ofList (rest.takeWhile (· ≠ ','))), rest.dropWhile (· ≠ ','))
  | ' ' :: 'i' :: 'n' :: ' ' :: '(' :: rest =>
    (term (.oneOf key (readValues (rest.takeWhile (· ≠ ')')))), (rest.dropWhile (· ≠ ')')).tail)
  | ' ' :: 'n' :: 'o' :: 't' :: 'i' :: 'n' :: ' ' :: '(' :: rest =>
    (term (.noneOf key (readValues (rest.takeWhile (· ≠ ')')))), (rest.dropWhile (· ≠ ')')).tail)
  | rest => (term (.present key), rest)

def read (cs : List Char) : Clause × List Char :=
  if cs.head? = some '!' then
    (term (.absent (.ofList (cs.tail.takeWhile (· ≠ ',')))), cs.tail.dropWhile (· ≠ ','))
  else readAfter (.ofList (cs.takeWhile isKeyChar)) (cs.dropWhile isKeyChar)

/-- A key ends where something begins that no key has. -/
theorem read_key (hkey : PlainKey key) (hrest : ∀ c ∈ rest.head?, isKeyChar c = false) :
    read (key.toList ++ rest) = readAfter key rest := by
  have hchars : ∀ c ∈ key.toList, isKeyChar c = true := by
    intro c hc
    have hcomma : c ≠ ',' := fun h => hkey.comma (h ▸ hc)
    have hequals : c ≠ '=' := fun h => hkey.equals (h ▸ hc)
    have hspace : c ≠ ' ' := fun h => hkey.space (h ▸ hc)
    simp [isKeyChar, hcomma, hequals, hspace]
  have hhead : (key.toList ++ rest).head? ≠ some '!' := by
    rw [List.head?_append_of_ne_nil _ hkey.nonempty]
    exact hkey.head
  rw [read, if_neg hhead, takeWhile_append_stop hchars hrest, dropWhile_append_stop hchars hrest,
    String.ofList_toList]

/-- The values are read back from their list. -/
theorem readValues_text {values : List String} (hne : values ≠ [])
    (hvalues : ∀ v ∈ values, PlainValue v) :
    readValues (String.intercalate "," values).toList = values := by
  have hcommas : ∀ w ∈ values.map String.toList, ',' ∉ w := by
    intro w hw
    obtain ⟨v, hv, rfl⟩ := List.mem_map.1 hw
    exact (hvalues v hv).comma
  have hsep : ",".toList = [','] := rfl
  rw [readValues, String.toList_intercalate, hsep,
    List.splitOn_intercalate ',' hcommas (by simpa using hne), List.map_map]
  simp [Function.comp_def]

theorem bracket_not_mem_values {values : List String} (hvalues : ∀ v ∈ values, PlainValue v) :
    ')' ∉ (String.intercalate "," values).toList := by
  have hsep : ",".toList = [','] := rfl
  rw [String.toList_intercalate, hsep]
  cases values with
  | nil => simp
  | cons v vs =>
    rw [List.map_cons, intercalate_cons]
    obtain ⟨hv, hvs⟩ := List.forall_mem_cons.1 hvalues
    simp only [List.mem_append, List.mem_flatMap, List.mem_map, not_or, not_exists, not_and]
    refine ⟨hv.bracket, ?_⟩
    rintro _ ⟨u, hu, rfl⟩ hmem
    rcases List.mem_cons.1 hmem with h | h
    · exact absurd h (by decide)
    · exact (hvs u hu).bracket h

/-- The closing bracket of values is the first one after their opening bracket. -/
theorem read_values {values : List String} (hne : values ≠ [])
    (hvalues : ∀ v ∈ values, PlainValue v) (rest : List Char) :
    readValues (((String.intercalate "," values).toList ++ ')' :: rest).takeWhile (· ≠ ')')) =
        values ∧
      (((String.intercalate "," values).toList ++ ')' :: rest).dropWhile (· ≠ ')')).tail =
        rest := by
  have hchars : ∀ c ∈ (String.intercalate "," values).toList, decide (c ≠ ')') = true :=
    fun c hc => decide_eq_true fun h => bracket_not_mem_values hvalues (h ▸ hc)
  have hstop : ∀ c ∈ (')' :: rest).head?, decide (c ≠ ')') = false := by simp
  rw [takeWhile_append_stop hchars hstop, dropWhile_append_stop hchars hstop]
  exact ⟨readValues_text hne hvalues, rfl⟩

/-- A plain clause is read back, when nothing follows it or a comma does. -/
theorem read_text (h : c.Plain) (hrest : ∀ d ∈ rest.head?, d = ',') :
    read (c.text.toList ++ rest) = (c, rest) := by
  have hstop : ∀ d ∈ rest.head?, decide (d ≠ ',') = false := fun d hd => by simp [hrest d hd]
  cases h with
  | @label key value hkey hvalue =>
    have hchars : ∀ d ∈ value.toList, decide (d ≠ ',') = true :=
      fun d hd => decide_eq_true fun h => hvalue.comma (h ▸ hd)
    have htext : (label key value).text.toList ++ rest =
        key.toList ++ '=' :: (value.toList ++ rest) := by
      simp [text]
    rw [htext, read_key hkey (by simp [isKeyChar]), readAfter, takeWhile_append_stop hchars hstop,
      dropWhile_append_stop hchars hstop, String.ofList_toList]
  | @oneOf key values hkey hne hvalues =>
    have htext : (term (.oneOf key values)).text.toList ++ rest = key.toList ++
        ' ' :: 'i' :: 'n' :: ' ' :: '(' ::
          ((String.intercalate "," values).toList ++ ')' :: rest) := by
      simp [text, Term.text]
    obtain ⟨hread, htail⟩ := read_values hne hvalues rest
    rw [htext, read_key hkey (by simp [isKeyChar]), readAfter, hread, htail]
  | @noneOf key values hkey hne hvalues =>
    have htext : (term (.noneOf key values)).text.toList ++ rest = key.toList ++
        ' ' :: 'n' :: 'o' :: 't' :: 'i' :: 'n' :: ' ' :: '(' ::
          ((String.intercalate "," values).toList ++ ')' :: rest) := by
      simp [text, Term.text]
    obtain ⟨hread, htail⟩ := read_values hne hvalues rest
    rw [htext, read_key hkey (by simp [isKeyChar]), readAfter, hread, htail]
  | @present key hkey =>
    have hend : ∀ d ∈ rest.head?, isKeyChar d = false := fun d hd => by simp [hrest d hd, isKeyChar]
    rw [show (term (.present key)).text = key from rfl, read_key hkey hend]
    cases rest with
    | nil => rfl
    | cons d rest =>
      obtain rfl := hrest d rfl
      rfl
  | @absent key hkey =>
    have hchars : ∀ d ∈ key.toList, decide (d ≠ ',') = true :=
      fun d hd => decide_eq_true fun h => hkey.comma (h ▸ hd)
    have htext : (term (.absent key)).text.toList ++ rest = '!' :: (key.toList ++ rest) := by
      simp [text, Term.text]
    have hhead : ('!' :: (key.toList ++ rest)).head? = some '!' := rfl
    rw [htext, read, if_pos hhead, List.tail_cons, takeWhile_append_stop hchars hstop,
      dropWhile_append_stop hchars hstop, String.ofList_toList]

/-- No plain clause is empty, so an empty query has no clause. -/
theorem text_ne_nil (h : c.Plain) : c.text.toList ≠ [] := by
  cases h with
  | absent => simp [text, Term.text]
  | label hkey | oneOf hkey | noneOf hkey | present hkey => simp [text, Term.text, hkey.nonempty]

end Clause

/-! ## Reading all clauses -/

def commaTexts (cs : List Clause) : List Char := cs.flatMap fun c => ',' :: c.text.toList

theorem eq_comma_of_head?_commaTexts (cs : List Clause) : ∀ d ∈ (commaTexts cs).head?, d = ',' := by
  cases cs <;> simp [commaTexts]

/-- The clauses are read back from their texts one by one, since none of them can go on across a
comma. -/
theorem commaTexts_injective {cs ds : List Clause} (hcs : ∀ c ∈ cs, c.Plain)
    (hds : ∀ d ∈ ds, d.Plain) (h : commaTexts cs = commaTexts ds) : cs = ds := by
  induction cs generalizing ds with
  | nil =>
    cases ds with
    | nil => rfl
    | cons d ds => simp [commaTexts] at h
  | cons c cs ih =>
    cases ds with
    | nil => simp [commaTexts] at h
    | cons d ds =>
      obtain ⟨hc, htail⟩ := List.forall_mem_cons.1 hcs
      obtain ⟨hd, htail'⟩ := List.forall_mem_cons.1 hds
      have htexts : c.text.toList ++ commaTexts cs = d.text.toList ++ commaTexts ds := by
        simpa [commaTexts] using h
      have hread := congrArg Clause.read htexts
      rw [Clause.read_text hc (eq_comma_of_head?_commaTexts cs),
        Clause.read_text hd (eq_comma_of_head?_commaTexts ds)] at hread
      obtain ⟨hclause, hrest⟩ := Prod.mk.inj hread
      rw [hclause, ih htail htail' hrest]

theorem query_toList (c : Clause) (cs : List Clause) :
    (String.intercalate "," ((c :: cs).map Clause.text)).toList =
      c.text.toList ++ commaTexts cs := by
  have hsep : ",".toList = [','] := rfl
  rw [String.toList_intercalate, hsep, List.map_cons, List.map_cons, intercalate_cons]
  simp [commaTexts, List.flatMap_map]

/-- Plain clauses are all told by their query. -/
theorem clauses_eq_of_query_eq {cs ds : List Clause} (hcs : ∀ c ∈ cs, c.Plain)
    (hds : ∀ d ∈ ds, d.Plain)
    (h : String.intercalate "," (cs.map Clause.text) =
      String.intercalate "," (ds.map Clause.text)) : cs = ds := by
  have htexts := congrArg String.toList h
  cases cs with
  | nil =>
    cases ds with
    | nil => rfl
    | cons d ds =>
      rw [query_toList] at htexts
      exact absurd (List.append_eq_nil_iff.1 htexts.symm).1 (Clause.text_ne_nil (hds d (by simp)))
  | cons c cs =>
    cases ds with
    | nil =>
      rw [query_toList] at htexts
      exact absurd (List.append_eq_nil_iff.1 htexts).1 (Clause.text_ne_nil (hcs c (by simp)))
    | cons d ds =>
      rw [query_toList, query_toList] at htexts
      have hcommas : commaTexts (c :: cs) = commaTexts (d :: ds) := by
        simp only [commaTexts, List.flatMap_cons, List.cons_append] at htexts ⊢
        rw [htexts]
      exact commaTexts_injective hcs hds hcommas

/-! ## One query, one selection -/

/-- Selectors that keep to the rules and have the same query have the same clauses. -/
theorem clauses_eq_of_query?_eq {s s' : LabelSelector} (hs : ∀ rule, s.KeepsTo rule)
    (hs' : ∀ rule, s'.KeepsTo rule) {q : String} (hq : s.query? = .ok q)
    (hq' : s'.query? = .ok q) : ∃ cs : List Clause, ∀ labels,
      s.matches? labels = .ok (cs.all (Clause.holds labels)) ∧
        s'.matches? labels = .ok (cs.all (Clause.holds labels)) := by
  obtain ⟨ts, hts, htext⟩ := LabelSelector.query?_eq_ok_iff.1 hq
  obtain ⟨ts', hts', htext'⟩ := LabelSelector.query?_eq_ok_iff.1 hq'
  have hclauses : s.clauses ts = s'.clauses ts' :=
    clauses_eq_of_query_eq (LabelSelector.plain_of_mem_clauses hts hs)
      (LabelSelector.plain_of_mem_clauses hts' hs') (htext.symm.trans htext')
  refine ⟨s.clauses ts, fun labels => ⟨LabelSelector.matches?_eq_clauses hts labels, ?_⟩⟩
  rw [hclauses]
  exact LabelSelector.matches?_eq_clauses hts' labels

structure Clash where
  one : LabelSelector
  other : LabelSelector
  labels : SortedMap String String

namespace Clash

def labelsOf (pairs : List (String × String)) : SortedMap String String :=
  pairs.foldl (fun m p => m.insert p.1 p.2) SortedMap.empty

def ofExact (pairs : List (String × String)) : LabelSelector where
  matchLabels := some (labelsOf pairs)
  matchExpressions := none

def ofRequirements (rs : List Requirement) : LabelSelector where
  matchLabels := none
  matchExpressions := some rs

def breaking : TextRule → Clash
  | .keyNotEmpty => ⟨.everything, ofRequirements [⟨"", "Exists", none⟩], labelsOf []⟩
  | .keyNotNegated =>
    ⟨ofRequirements [⟨"a", "DoesNotExist", none⟩], ofRequirements [⟨"!a", "Exists", none⟩],
      labelsOf []⟩
  | .keyWithoutComma =>
    ⟨ofRequirements [⟨"a", "Exists", none⟩, ⟨"b", "Exists", none⟩],
      ofRequirements [⟨"a,b", "Exists", none⟩], labelsOf [("a", ""), ("b", "")]⟩
  | .keyWithoutEquals =>
    ⟨ofExact [("a", "b")], ofRequirements [⟨"a=b", "Exists", none⟩], labelsOf [("a", "b")]⟩
  | .keyWithoutSpace =>
    ⟨ofRequirements [⟨"a", "In", some ["b"]⟩], ofRequirements [⟨"a in (b)", "Exists", none⟩],
      labelsOf [("a", "b")]⟩
  | .valueWithoutComma =>
    ⟨ofRequirements [⟨"a", "In", some ["b", "c"]⟩], ofRequirements [⟨"a", "In", some ["b,c"]⟩],
      labelsOf [("a", "b")]⟩
  | .valueWithoutBracket =>
    ⟨ofRequirements [⟨"a", "In", some ["b"]⟩, ⟨"c)", "Exists", none⟩],
      ofRequirements [⟨"a", "In", some ["b)", "c"]⟩], labelsOf [("a", "b"), ("c)", "")]⟩

variable {rule other : TextRule}

theorem keepsTo_of_ne (h : rule ≠ other) :
    (breaking rule).one.KeepsTo other ∧ (breaking rule).other.KeepsTo other := by
  cases rule <;> cases other <;> first | exact absurd rfl h | decide

/-- With any one of the rules broken, two selectors have one query. -/
theorem query_eq (rule : TextRule) :
    ∃ q, (breaking rule).one.query? = .ok q ∧ (breaking rule).other.query? = .ok q := by
  cases rule <;> exact ⟨_, rfl, by decide⟩

/-- The same two selectors differ in what they match. -/
theorem matches_ne (rule : TextRule) :
    (breaking rule).one.matches? (breaking rule).labels = .ok true ∧
      (breaking rule).other.matches? (breaking rule).labels = .ok false := by
  cases rule <;> decide

end Clash

/-- Selectors that keep to some of the rules, and have one query, are decided alike on all labels,
for any two of them exactly if these are all seven rules. -/
theorem query_determines_selection_iff (R : TextRule → Prop) :
    (∀ s s' : LabelSelector, (∀ rule, R rule → s.KeepsTo rule) →
        (∀ rule, R rule → s'.KeepsTo rule) → ∀ q, s.query? = .ok q → s'.query? = .ok q →
          ∀ labels, s.matches? labels = s'.matches? labels) ↔
      ∀ rule, R rule := by
  constructor
  · intro h rule
    by_contra hrule
    have hother (other : TextRule) (hR : R other) : rule ≠ other := fun he => hrule (he ▸ hR)
    obtain ⟨q, hq, hq'⟩ := Clash.query_eq rule
    have hsame := h _ _ (fun other hR => (Clash.keepsTo_of_ne (hother other hR)).1)
      (fun other hR => (Clash.keepsTo_of_ne (hother other hR)).2) q hq hq'
      (Clash.breaking rule).labels
    obtain ⟨hone, hnot⟩ := Clash.matches_ne rule
    rw [hone, hnot] at hsame
    cases hsame
  · intro hall s s' hs hs' q hq hq' labels
    obtain ⟨cs, hcs⟩ := clauses_eq_of_query?_eq (fun rule => hs rule (hall rule))
      (fun rule => hs' rule (hall rule)) hq hq'
    obtain ⟨hmatches, hmatches'⟩ := hcs labels
    rw [hmatches, hmatches']

/-- A requirement without a key asks the server for everything, and accepts nothing. -/
theorem keyless_requirement_asks_for_everything :
    LabelSelector.everything.query? = .ok "" ∧
      (Clash.ofRequirements [⟨"", "Exists", none⟩]).query? = .ok "" ∧
      LabelSelector.everything.matches? SortedMap.empty = .ok true ∧
      (Clash.ofRequirements [⟨"", "Exists", none⟩]).matches? SortedMap.empty = .ok false := by
  decide

end PodRules
