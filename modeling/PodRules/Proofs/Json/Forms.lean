import PodRules.Json.Form
import PodRules.Proofs.Json.RoundTrip
import PodRules.Proofs.Order.SortedMap

namespace PodRules

class LawfulForm (α : Type) [JsonForm α] : Prop where
  isPlain_toJson : ∀ v : α, (toJson v).isPlain = true
  toJson_ne_null : ∀ v : α, toJson v ≠ .null
  ofJson?_toJson : ∀ v : α, (ofJson? (toJson v) : Option α) = some v

namespace Json

/-! ## Records -/

def membersOf (fields : List (String × Option Json)) : List (String × Json) :=
  fields.filterMap fun f => f.2.map (f.1, ·)

def record (fields : List (String × Option Json)) : Json := .object (membersOf fields)

variable {fields : List (String × Option Json)} {name : String} {field? : Option Json}

theorem fst_mem_of_mem_membersOf {m : String × Json} (h : m ∈ membersOf fields) :
    m.1 ∈ fields.map (·.1) := by
  obtain ⟨f, hf, hm⟩ := List.mem_filterMap.1 h
  obtain ⟨j, -, rfl⟩ := Option.map_eq_some_iff.1 hm
  exact List.mem_map.2 ⟨f, hf, rfl⟩

/-- The members of one name are the field of that name, if it has a value. -/
theorem filter_membersOf (hn : (fields.map (·.1)).Nodup) (h : (name, field?) ∈ fields) :
    (membersOf fields).filter (·.1 = name) = field?.toList.map (name, ·) := by
  induction fields with
  | nil => cases h
  | cons f fields ih =>
    obtain ⟨hnot, hn⟩ := List.nodup_cons.1 hn
    rcases List.mem_cons.1 h with rfl | h
    · -- No other field has this name.
      have hrest : (membersOf fields).filter (·.1 = name) = [] := by
        rw [List.filter_eq_nil_iff]
        intro m hm he
        have hname : m.1 = name := of_decide_eq_true he
        exact hnot (hname ▸ fst_mem_of_mem_membersOf hm)
      cases field? with
      | none => simpa [membersOf] using hrest
      | some j => simpa [membersOf] using hrest
    · have hne : f.1 ≠ name := by
        rintro rfl
        exact hnot (List.mem_map.2 ⟨_, h, rfl⟩)
      have hrest := ih hn h
      obtain ⟨n, value⟩ := f
      cases value with
      | none => simpa [membersOf] using hrest
      | some j => simpa [membersOf, hne] using hrest

/-- Looking a name up is taking the first member of that name, so that a record with distinct names
is read field by field. -/
theorem lookup_eq_head?_filter (ms : List (String × Json)) (name : String) :
    ms.lookup name = ((ms.filter (·.1 = name)).head?).map (·.2) := by
  induction ms with
  | nil => rfl
  | cons m ms ih =>
    obtain ⟨n, j⟩ := m
    by_cases hn : n = name
    · simp [hn]
    · have hne : (name == n) = false := by simpa using Ne.symm hn
      simp [List.lookup_cons, hn, hne, ih]

/-- A record is read field by field. -/
theorem fields?_record (fields : List (String × Option Json)) (hn : (fields.map (·.1)).Nodup) :
    (record fields).fields? (fields.map (·.1)) = some (fields.map (·.2)) := by
  have hlookup : ∀ f ∈ fields, (membersOf fields).lookup f.1 = f.2 := by
    intro f hf
    rw [lookup_eq_head?_filter, filter_membersOf hn hf]
    cases f.2 <;> rfl
  have honce : ((fields.map (·.1)).all fun n => (membersOf fields).countP (·.1 = n) ≤ 1) = true := by
    rw [List.all_eq_true]
    intro n hmem
    obtain ⟨f, hf, rfl⟩ := List.mem_map.1 hmem
    rw [List.countP_eq_length_filter, filter_membersOf hn hf]
    cases f.2 <;> simp
  rw [record, Json.fields?]
  simp only [honce, if_true, List.map_map, Option.some.injEq]
  exact List.map_congr_left hlookup

def PlainField (field? : Option Json) : Prop := ∀ j ∈ field?, j.isPlain = true

theorem isPlain_record (h : ∀ f ∈ fields, PlainField f.2) : (record fields).isPlain = true := by
  rw [record, isPlain]
  induction fields with
  | nil => rfl
  | cons f fields ih =>
    have hrest := ih fun g hg => h g (List.mem_cons_of_mem f hg)
    obtain ⟨name, value⟩ := f
    cases value with
    | none => exact hrest
    | some j =>
      have hj : j.isPlain = true := h (name, some j) (List.mem_cons_self ..) j rfl
      exact Bool.and_eq_true_iff.2 ⟨hj, hrest⟩

/-! ## Fields -/

section Fields

variable {α : Type} [JsonForm α]

def listField (vs : List α) : Option Json := if vs.isEmpty then none else some (toJson vs)

theorem present_eq (name : String) (v : Option α) :
    present name v = (v.map toJson).map (name, ·) :=
  (Option.map_map ..).symm

theorem nonEmpty_eq (name : String) (vs : List α) :
    nonEmpty name vs = (listField vs).map (name, ·) := by
  cases vs with
  | nil => rfl
  | cons v vs => rfl

variable [LawfulForm α]

@[simp] theorem required?_toJson (v : α) : required? (some (toJson v)) = some v :=
  LawfulForm.ofJson?_toJson v

@[simp] theorem defaulted?_toJson (d v : α) : defaulted? d (some (toJson v)) = some v :=
  LawfulForm.ofJson?_toJson v

theorem optional?_some (v : α) : optional? (some (toJson v)) = some (some v) := by
  have hne := LawfulForm.toJson_ne_null v
  unfold optional?
  split
  next h => cases h
  next h => exact absurd (Option.some.inj h) hne
  next h =>
    obtain rfl := Option.some.inj h
    rw [LawfulForm.ofJson?_toJson]
    rfl

@[simp] theorem optional?_map (v : Option α) : optional? (v.map toJson) = some v := by
  cases v with
  | none => rfl
  | some v => exact optional?_some v

/-- A member of a record is also what a reader finds that takes the last one of a name. -/
theorem lenient?_record (hn : (fields.map (·.1)).Nodup) (name : String) (v : Option α)
    (h : (name, v.map toJson) ∈ fields) : lenient? name (membersOf fields) = some v := by
  rw [lenient?, filter_membersOf hn h]
  cases v with
  | none => rfl
  | some v => simp [optional?_some]

theorem itemsPlain_map (vs : List α) : itemsPlain (vs.map toJson) = true := by
  induction vs with
  | nil => rfl
  | cons v vs ih => exact Bool.and_eq_true_iff.2 ⟨LawfulForm.isPlain_toJson v, ih⟩

theorem mapM_ofJson?_map (vs : List α) :
    (vs.map toJson).mapM (ofJson? : Json → Option α) = some vs := by
  induction vs with
  | nil => rfl
  | cons v vs ih =>
    rw [List.map_cons, List.mapM_cons, LawfulForm.ofJson?_toJson, ih]
    rfl

@[simp] theorem plainField_map (v : Option α) : PlainField (v.map toJson) := by
  intro j h
  obtain ⟨w, -, rfl⟩ := Option.map_eq_some_iff.1 h
  exact LawfulForm.isPlain_toJson w

@[simp] theorem plainField_toJson (v : α) : PlainField (some (toJson v)) :=
  plainField_map (some v)

end Fields

end Json

/-! ## Texts, numbers, lists, sets and maps -/

instance : LawfulForm String where
  isPlain_toJson _ := rfl
  toJson_ne_null _ := Json.noConfusion
  ofJson?_toJson _ := rfl

instance : LawfulForm Bool where
  isPlain_toJson _ := rfl
  toJson_ne_null _ := Json.noConfusion
  ofJson?_toJson _ := rfl

instance : LawfulForm Int64 where
  isPlain_toJson _ := rfl
  toJson_ne_null _ := Json.noConfusion
  ofJson?_toJson i := by
    have hrange : Int64.minValue.toInt ≤ i.toInt ∧ i.toInt ≤ Int64.maxValue.toInt :=
      ⟨Int64.minValue_le_toInt i, Int64.toInt_le i⟩
    show ite _ (some (Int64.ofInt i.toInt)) none = some i
    rw [if_pos hrange, Int64.ofInt_toInt]

section Collections

variable {α : Type} [JsonForm α] [LawfulForm α]

instance : LawfulForm (List α) where
  isPlain_toJson vs := Json.itemsPlain_map vs
  toJson_ne_null _ := Json.noConfusion
  ofJson?_toJson vs := Json.mapM_ofJson?_map vs

theorem SortedSet.ofList_toList {β : Type} [Ord β] [Std.TransOrd β] [Std.LawfulEqOrd β]
    (s : SortedSet β) : SortedSet.ofList s.toList = s := by
  ext x
  exact SortedSet.mem_ofList

namespace Json

@[simp] theorem defaulted?_listField (vs : List α) : defaulted? [] (listField vs) = some vs := by
  cases vs with
  | nil => rfl
  | cons v vs => exact defaulted?_toJson [] (v :: vs)

@[simp] theorem plainField_listField (vs : List α) : PlainField (listField vs) := by
  cases vs with
  | nil => exact plainField_map (none : Option α)
  | cons v vs => exact plainField_toJson (v :: vs)

end Json

instance [Ord α] [Std.TransOrd α] [Std.LawfulEqOrd α] : LawfulForm (SortedSet α) where
  isPlain_toJson s := Json.itemsPlain_map s.toList
  toJson_ne_null _ := Json.noConfusion
  ofJson?_toJson s := by
    show (ofJson? (toJson s.toList) : Option (List α)).map SortedSet.ofList = some s
    rw [LawfulForm.ofJson?_toJson, Option.map_some, SortedSet.ofList_toList]

instance : LawfulForm (SortedMap String α) where
  isPlain_toJson m := by
    show Json.membersPlain (m.entries.map fun e => (e.1, toJson e.2)) = true
    generalize m.entries = entries
    induction entries with
    | nil => rfl
    | cons e entries ih =>
      exact Bool.and_eq_true_iff.2 ⟨LawfulForm.isPlain_toJson e.2, ih⟩
  toJson_ne_null _ := Json.noConfusion
  ofJson?_toJson m := by
    have hentries : ∀ entries : List (String × α), (entries.map fun e => (e.1, toJson e.2)).mapM
        (fun m => (ofJson? m.2 : Option α).map fun v => (m.1, v)) = some entries := by
      intro entries
      induction entries with
      | nil => rfl
      | cons e entries ih =>
        rw [List.map_cons, List.mapM_cons, LawfulForm.ofJson?_toJson, ih]
        rfl
    have hread := congrArg (Option.map SortedMap.ofList) (hentries m.entries)
    rwa [Option.map_some, SortedMap.ofList_entries] at hread

end Collections

/-! ## Whole values -/

section Values

variable {α : Type} [JsonForm α]

/-- A type has a lawful form if its values are written as records of plain fields. -/
theorem LawfulForm.ofRecord (fieldsOf : α → List (String × Option Json))
    (hform : ∀ v, toJson v = Json.record (fieldsOf v))
    (hplain : ∀ v, ∀ f ∈ fieldsOf v, Json.PlainField f.2)
    (hread : ∀ v, ofJson? (Json.record (fieldsOf v)) = some v) : LawfulForm α where
  isPlain_toJson v := by
    rw [hform]
    exact Json.isPlain_record (hplain v)
  toJson_ne_null v := by
    rw [hform]
    exact Json.noConfusion
  ofJson?_toJson v := by
    rw [hform]
    exact hread v

def Json.decode? (α : Type) [JsonForm α] (text : String) : Option α := (parse? text).bind ofJson?

/-- A value is read back from its printed text. -/
theorem Json.decode?_text [LawfulForm α] (v : α) : decode? α (toJson v).text = some v := by
  rw [decode?, parse?_text (LawfulForm.isPlain_toJson v), Option.bind_some]
  exact LawfulForm.ofJson?_toJson v

end Values

end PodRules
