import Mathlib.Data.List.Forall2
import Mathlib.Tactic.SplitIfs
import PodRules.Selector.Term

namespace PodRules

variable {labels : SortedMap String String} {e : SelectorError}

namespace Requirement

variable {r : Requirement} {rs : List Requirement} {t : Term} {ts : List Term}

/-- The operator is known, and values are there exactly when it wants them. -/
def IsValid (r : Requirement) : Prop :=
  r.operator ∈ ["In", "NotIn"] ∧ r.values.getD [] ≠ [] ∨
    r.operator ∈ ["Exists", "DoesNotExist"] ∧ r.values.getD [] = []

structure IsMet (labels : SortedMap String String) (r : Requirement) : Prop where
  listed : r.operator = "In" → ∃ v ∈ r.values.getD [], labels.get? r.key = some v
  unlisted : r.operator = "NotIn" → ∀ v ∈ r.values.getD [], labels.get? r.key ≠ some v
  present : r.operator = "Exists" → ∃ v, labels.get? r.key = some v
  absent : r.operator = "DoesNotExist" → labels.get? r.key = none

/-! ## One requirement -/

/-- The term that a requirement denotes, if it does. -/
inductive Denotes : Requirement → Term → Prop
  | oneOf {key : String} {values : Option (List String)} (h : values.getD [] ≠ []) :
      Denotes ⟨key, "In", values⟩ (.oneOf key (values.getD []))
  | noneOf {key : String} {values : Option (List String)} (h : values.getD [] ≠ []) :
      Denotes ⟨key, "NotIn", values⟩ (.noneOf key (values.getD []))
  | present {key : String} {values : Option (List String)} (h : values.getD [] = []) :
      Denotes ⟨key, "Exists", values⟩ (.present key)
  | absent {key : String} {values : Option (List String)} (h : values.getD [] = []) :
      Denotes ⟨key, "DoesNotExist", values⟩ (.absent key)

theorem term?_eq_ok_iff : r.term? = .ok t ↔ r.Denotes t := by
  obtain ⟨key, operator, values⟩ := r
  constructor
  · intro h
    unfold term? at h
    dsimp only at h
    -- One case for each operator, with values or without as it wants them.
    split_ifs at h with hin hempty hnotin hempty hexists hempty habsent hempty
    · subst hin
      cases h
      exact .oneOf (by simpa using hempty)
    · subst hnotin
      cases h
      exact .noneOf (by simpa using hempty)
    · subst hexists
      cases h
      exact .present (by simpa using hempty)
    · subst habsent
      cases h
      exact .absent (by simpa using hempty)
  · intro h
    cases h with
    | oneOf h | noneOf h => simp [term?, h]
    | present h | absent h => simp [term?, h]

/-- A requirement denotes a term exactly if it is valid. -/
theorem exists_denotes_iff : (∃ t, r.Denotes t) ↔ r.IsValid := by
  constructor
  · rintro ⟨t, h⟩
    cases h with
    | oneOf h | noneOf h => exact .inl ⟨by simp, h⟩
    | present h | absent h => exact .inr ⟨by simp, h⟩
  · obtain ⟨key, operator, values⟩ := r
    rintro (⟨hoperator, hvalues⟩ | ⟨hoperator, hvalues⟩)
    all_goals
      simp only [List.mem_cons, List.not_mem_nil, or_false] at hoperator
      rcases hoperator with rfl | rfl
    · exact ⟨_, .oneOf hvalues⟩
    · exact ⟨_, .noneOf hvalues⟩
    · exact ⟨_, .present hvalues⟩
    · exact ⟨_, .absent hvalues⟩

/-- The term holds where the requirement is met. -/
theorem Denotes.holds_iff (h : r.Denotes t) : t.holds labels = true ↔ r.IsMet labels := by
  -- A requirement has one operator, so only one of the four conditions says anything.
  cases h with
  | @oneOf key values =>
    have hterm : (Term.oneOf key (values.getD [])).holds labels = true ↔
        ∃ v ∈ values.getD [], labels.get? key = some v := by
      simp [Term.holds, Option.any_eq_true, and_comm]
    rw [hterm]
    exact ⟨fun h => ⟨fun _ => h, by simp, by simp, by simp⟩, fun h => h.listed rfl⟩
  | @noneOf key values =>
    have hterm : (Term.noneOf key (values.getD [])).holds labels = true ↔
        ∀ v ∈ values.getD [], labels.get? key ≠ some v := by
      cases hlabel : labels.get? key with
      | none => simp [Term.holds, hlabel]
      | some value =>
        simp only [Term.holds, hlabel, Option.any_some, Bool.not_eq_true', decide_eq_false_iff_not]
        exact ⟨fun hv v hmem he => hv (Option.some.inj he ▸ hmem), fun h hv => h value hv rfl⟩
    rw [hterm]
    exact ⟨fun h => ⟨by simp, fun _ => h, by simp, by simp⟩, fun h => h.unlisted rfl⟩
  | @present key values =>
    have hterm : (Term.present key).holds labels = true ↔ ∃ v, labels.get? key = some v := by
      simp [Term.holds, Option.isSome_iff_exists]
    rw [hterm]
    exact ⟨fun h => ⟨by simp, by simp, fun _ => h, by simp⟩, fun h => h.present rfl⟩
  | @absent key values =>
    have hterm : (Term.absent key).holds labels = true ↔ labels.get? key = none := by
      simp [Term.holds]
    rw [hterm]
    exact ⟨fun h => ⟨by simp, by simp, by simp, fun _ => h⟩, fun h => h.absent rfl⟩

/-! ## All requirements -/

theorem terms?_eq_ok_iff : terms? rs = .ok ts ↔ List.Forall₂ Denotes rs ts := by
  induction rs generalizing ts with
  | nil => simp [terms?, eq_comm]
  | cons r rs ih =>
    rw [List.forall₂_cons_left_iff]
    simp only [← ih, ← term?_eq_ok_iff, terms?]
    cases ht : r.term? with
    | error e => simp
    | ok t =>
      cases hts : terms? rs with
      | error e => simp
      | ok ts => simp [eq_comm]

theorem exists_denotes_of_mem (h : List.Forall₂ Denotes rs ts) (ht : t ∈ ts) :
    ∃ r ∈ rs, r.Denotes t := by
  induction h with
  | nil => cases ht
  | cons hd _ ih =>
    rcases List.mem_cons.1 ht with rfl | ht
    · exact ⟨_, List.mem_cons_self, hd⟩
    · obtain ⟨r, hr, hden⟩ := ih ht
      exact ⟨r, List.mem_cons_of_mem _ hr, hden⟩

theorem exists_terms?_iff : (∃ ts, terms? rs = .ok ts) ↔ ∀ r ∈ rs, r.IsValid := by
  simp only [terms?_eq_ok_iff]
  induction rs with
  | nil => simp
  | cons r rs ih =>
    rw [List.forall_mem_cons, ← ih, ← exists_denotes_iff]
    constructor
    · rintro ⟨_, hterms⟩
      obtain ⟨t, ts, ht, hts, -⟩ := List.forall₂_cons_left_iff.1 hterms
      exact ⟨⟨t, ht⟩, ts, hts⟩
    · rintro ⟨⟨t, ht⟩, ts, hts⟩
      exact ⟨t :: ts, .cons ht hts⟩

theorem forall_holds_iff (h : List.Forall₂ Denotes rs ts) :
    (∀ t ∈ ts, t.holds labels = true) ↔ ∀ r ∈ rs, r.IsMet labels := by
  induction h with
  | nil => simp
  | cons ht _ ih => rw [List.forall_mem_cons, List.forall_mem_cons, ht.holds_iff, ih]

/-- Requirements that denote terms are decided by these. -/
theorem allHold?_of_denotes (h : List.Forall₂ Denotes rs ts) :
    allHold? labels rs = .ok (ts.all (Term.holds labels)) := by
  induction h with
  | nil => rfl
  | @cons r t rs ts ht _ ih =>
    simp only [allHold?, term?_eq_ok_iff.2 ht, List.all_cons, ih]
    cases t.holds labels <;> rfl

/-- The first requirement that denotes nothing is reported, unless one before it is not met. -/
theorem allHold?_of_error (h : terms? rs = .error e) :
    allHold? labels rs = .error e ∨ allHold? labels rs = .ok false := by
  induction rs with
  | nil => cases h
  | cons r rs ih =>
    rw [terms?] at h
    rw [allHold?]
    cases ht : r.term? with
    | error e' =>
      rw [ht] at h
      cases h
      exact .inl rfl
    | ok t =>
      have hrest : terms? rs = .error e := by
        rw [ht] at h
        cases hts : terms? rs with
        | error e' =>
          rw [hts] at h
          cases h
          rfl
        | ok ts => simp [hts] at h
      by_cases hholds : t.holds labels = true
      · simpa [hholds] using ih hrest
      · simp [hholds]

end Requirement

namespace LabelSelector

variable {s : LabelSelector} {ts : List Term}

theorem exists_query?_iff :
    (∃ q, s.query? = .ok q) ↔ ∃ ts, Requirement.terms? s.requirements = .ok ts := by
  unfold query?
  cases Requirement.terms? s.requirements <;> simp

/-- A query fails as the translation of the requirements does. -/
theorem query?_eq_error_iff :
    s.query? = .error e ↔ Requirement.terms? s.requirements = .error e := by
  unfold query?
  cases Requirement.terms? s.requirements <;> simp

/-- A selector that denotes terms is decided by its exact labels and these. -/
theorem matches?_of_terms? (h : Requirement.terms? s.requirements = .ok ts) :
    s.matches? labels = .ok
      ((s.labelPairs.all fun p => labels.get? p.1 = some p.2) && ts.all (Term.holds labels)) := by
  rw [matches?, Requirement.allHold?_of_denotes (Requirement.terms?_eq_ok_iff.1 h)]
  cases s.labelPairs.all fun p => labels.get? p.1 = some p.2 <;> rfl

end LabelSelector

/-- A selector has a query exactly if all its requirements are valid. Then it is decided on all
labels, and matches those that have all its exact labels and meet all its requirements. Otherwise
it never matches, and no other error is found than the one that it has no query for. -/
theorem query_and_matches_agree (s : LabelSelector) (labels : SortedMap String String) :
    ((∃ q, s.query? = .ok q) ↔ ∀ r ∈ s.requirements, r.IsValid) ∧
      (∀ q, s.query? = .ok q → ∃ b, s.matches? labels = .ok b ∧
        (b = true ↔ (∀ p ∈ s.labelPairs, labels.get? p.1 = some p.2) ∧
          ∀ r ∈ s.requirements, r.IsMet labels)) ∧
      ∀ e, s.query? = .error e →
        s.matches? labels = .error e ∨ s.matches? labels = .ok false := by
  refine ⟨?_, ?_, ?_⟩
  · rw [LabelSelector.exists_query?_iff, Requirement.exists_terms?_iff]
  · intro q hq
    obtain ⟨ts, hts⟩ := LabelSelector.exists_query?_iff.1 ⟨q, hq⟩
    refine ⟨_, LabelSelector.matches?_of_terms? hts, ?_⟩
    rw [← Requirement.forall_holds_iff (Requirement.terms?_eq_ok_iff.1 hts), Bool.and_eq_true,
      List.all_eq_true, List.all_eq_true]
    simp only [decide_eq_true_eq]
  · intro e he
    have hterms := LabelSelector.query?_eq_error_iff.1 he
    unfold LabelSelector.matches?
    split
    · exact Requirement.allHold?_of_error hterms
    · exact .inr rfl

namespace Matching

def web : LabelSelector where
  matchLabels := some (SortedMap.empty.insert "app" "web")
  matchExpressions := some [⟨"tier", "In", some ["a", "b"]⟩, ⟨"legacy", "DoesNotExist", none⟩]

def misspelt : LabelSelector where
  matchLabels := none
  matchExpressions := some [⟨"tier", "In", some ["a", "b"]⟩, ⟨"env", "notin", some ["dev"]⟩,
    ⟨"legacy", "Exists", some ["yes"]⟩]

def webLabels : SortedMap String String := (SortedMap.empty.insert "app" "web").insert "tier" "a"

end Matching

open Matching in
/-- A selector with a query, and one with two requirements that denote nothing. -/
theorem misspelt_selector_never_matches :
    (∃ b, web.matches? webLabels = .ok b ∧
        (b = true ↔ (∀ p ∈ web.labelPairs, webLabels.get? p.1 = some p.2) ∧
          ∀ r ∈ web.requirements, r.IsMet webLabels)) ∧
      (misspelt.matches? webLabels = .error (.unknownOperator "env" "notin") ∨
        misspelt.matches? webLabels = .ok false) := by
  have hquery : web.query? = .ok "app=web,tier in (a,b),!legacy" := by decide
  have hnone : misspelt.query? = .error (.unknownOperator "env" "notin") := by decide
  exact ⟨(query_and_matches_agree web webLabels).2.1 _ hquery,
    (query_and_matches_agree misspelt webLabels).2.2 _ hnone⟩

end PodRules
