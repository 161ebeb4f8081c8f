import PodRules.Stage.Names

namespace PodRules

/-! ## Blanks at the ends of a text -/

namespace Text

def AllBlank (cs : List Char) : Prop := ∀ c ∈ cs, isBlank c = true

instance (cs : List Char) : Decidable (AllBlank cs) :=
  decidable_of_iff (cs.all isBlank = true) List.all_eq_true

theorem AllBlank.reverse {cs : List Char} (h : AllBlank cs) : AllBlank cs.reverse :=
  fun c hc => h c (List.mem_reverse.1 hc)

theorem trimStart_append {before : List Char} (h : AllBlank before) (cs : List Char) :
    trimStart (before ++ cs) = trimStart cs :=
  List.dropWhile_append_of_pos h

theorem trimStart_eq_nil {cs : List Char} (h : AllBlank cs) : trimStart cs = [] := by
  rw [← List.append_nil cs, trimStart_append h]
  rfl

theorem trim_append {after : List Char} (h : AllBlank after) (cs : List Char) :
    trim (cs ++ after) = trim cs := by
  have hstart : trimStart (cs ++ after) =
      if (trimStart cs).isEmpty = true then trimStart after else trimStart cs ++ after :=
    List.dropWhile_append
  rw [trim, trim, hstart]
  -- The blanks at the end are the first to go, or all that is left of the beginning.
  by_cases hcs : trimStart cs = []
  · rw [if_pos (List.isEmpty_iff.2 hcs), trimStart_eq_nil h, hcs]
  · rw [if_neg fun he => hcs (List.isEmpty_iff.1 he), List.reverse_append,
      trimStart_append h.reverse]

/-- Blanks around a text are trimmed. -/
theorem trim_padded {before after : List Char} (hb : AllBlank before) (ha : AllBlank after)
    (cs : List Char) : trim (before ++ cs ++ after) = trim cs := by
  rw [trim_append ha, trim, trimStart_append hb, ← trim]

theorem trim_eq_nil {cs : List Char} (h : AllBlank cs) : trim cs = [] := by
  rw [trim, trimStart_eq_nil h]
  rfl

/-- What trimming takes away are blanks at both ends. -/
theorem exists_padding (cs : List Char) :
    ∃ before after, AllBlank before ∧ AllBlank after ∧ cs = before ++ trim cs ++ after := by
  have htaken (ds : List Char) : AllBlank (ds.takeWhile isBlank) :=
    List.all_eq_true.1 List.all_takeWhile
  have hsplit (ds : List Char) : ds = ds.takeWhile isBlank ++ trimStart ds :=
    List.takeWhile_append_dropWhile.symm
  refine ⟨_, _, htaken cs, (htaken (trimStart cs).reverse).reverse, ?_⟩
  have hend : trimStart cs = trim cs ++ ((trimStart cs).reverse.takeWhile isBlank).reverse := by
    rw [trim, ← List.reverse_append, ← hsplit, List.reverse_reverse]
  rw [List.append_assoc, ← hend]
  exact hsplit cs

/-! ## Texts without a separator -/

theorem splitAt_of_not_mem {sep : Char} {cs : List Char} (h : sep ∉ cs) :
    splitAt sep cs = [cs] := by
  induction cs with
  | nil => rfl
  | cons c cs ih =>
    rw [List.mem_cons, not_or] at h
    rw [splitAt, if_neg (Ne.symm h.1), ih h.2]

theorem joinWith_eq_intercalate (sep : Char) (ws : List (List Char)) :
    joinWith sep ws = [sep].intercalate ws := by
  induction ws with
  | nil => rfl
  | cons w ws ih =>
    cases ws with
    | nil => simp [joinWith]
    | cons v vs => simp [joinWith, ih, List.intercalate_cons_cons]

end Text

/-! ## Written lists -/

/-- A name as it may stand in a written list. -/
structure IsStageName (name : String) : Prop where
  ne_empty : name ≠ ""
  no_comma : ',' ∉ name.toList
  begins : ∀ c ∈ name.toList.head?, Text.isBlank c = false
  ends : ∀ c ∈ name.toList.getLast?, Text.isBlank c = false

instance (name : String) : Decidable (IsStageName name) :=
  decidable_of_iff (name ≠ "" ∧ ',' ∉ name.toList ∧
      name.toList.head?.all (Text.isBlank · = false) = true ∧
      name.toList.getLast?.all (Text.isBlank · = false) = true) <| by
    simp only [Option.all_eq_true, decide_eq_true_eq]
    exact ⟨fun h => ⟨h.1, h.2.1, h.2.2.1, h.2.2.2⟩, fun h => ⟨h.1, h.2, h.3, h.4⟩⟩

/-- The items of a written list, and the names that stand in them in their order. -/
inductive ItemsHold : (items names : List String) → Prop
  | nil : ItemsHold [] []
  | blank {item : String} (h : Text.AllBlank item.toList) {items names : List String}
      (hrest : ItemsHold items names) : ItemsHold (item :: items) names
  | name (before name after : String) (hb : Text.AllBlank before.toList) (hn : IsStageName name)
      (ha : Text.AllBlank after.toList) {items names : List String}
      (hrest : ItemsHold items names) : ItemsHold ((before ++ name ++ after) :: items) (name :: names)

theorem IsStageName.trim {name : String} (h : IsStageName name) :
    Text.trim name.toList = name.toList :=
  Text.trim_eq_self h.begins h.ends

theorem Text.AllBlank.no_comma {cs : List Char} (h : AllBlank cs) : ',' ∉ cs :=
  fun hc => absurd (h ',' hc) (by decide)

/-- What is left of an item after trimming is a stage name, unless it is nothing. -/
theorem isStageName_trim {cs : List Char} (hcomma : ',' ∉ cs) (h : Text.trim cs ≠ []) :
    IsStageName (String.ofList (Text.trim cs)) := by
  obtain ⟨before, after, -, -, hcs⟩ := Text.exists_padding cs
  refine ⟨?_, ?_, ?_, ?_⟩
  · intro hempty
    exact h (by simpa using congrArg String.toList hempty)
  · rw [String.toList_ofList]
    intro hmem
    apply hcomma
    rw [hcs]
    simp [hmem]
  · intro c hc
    rw [String.toList_ofList] at hc
    exact Text.head?_trim hc
  · intro c hc
    rw [String.toList_ofList] at hc
    exact Text.getLast?_trim hc

namespace ItemsHold

variable {items names : List String}

theorem isStageName (h : ItemsHold items names) : ∀ name ∈ names, IsStageName name := by
  induction h with
  | nil => simp
  | blank _ _ ih => exact ih
  | name before name after _ hn _ _ ih => exact List.forall_mem_cons.2 ⟨hn, ih⟩

theorem of_names (h : ∀ name ∈ names, IsStageName name) : ItemsHold names names := by
  induction names with
  | nil => exact .nil
  | cons name names ih =>
    obtain ⟨hname, hnames⟩ := List.forall_mem_cons.1 h
    have hblank : Text.AllBlank "".toList := by simp [Text.AllBlank]
    simpa using ItemsHold.name "" name "" hblank hname hblank (ih hnames)

end ItemsHold

/-! ## Reading -/

/-- A text without commas holds at most one name. -/
theorem stageNames_of_no_comma {s : String} (h : ',' ∉ s.toList) :
    stageNames s = if Text.trim s.toList = [] then [] else [String.ofList (Text.trim s.toList)] := by
  rw [stageNames, stageNameChars, Text.splitAt_of_not_mem h]
  by_cases hs : Text.trim s.toList = [] <;> simp [hs]

/-- Items are read one by one. -/
theorem stageNames_intercalate (items : List String) :
    stageNames (",".intercalate items) = items.flatMap stageNames := by
  induction items with
  | nil =>
    rw [String.intercalate_nil, stageNames_of_no_comma (by simp)]
    simp [Text.trim, Text.trimStart]
  | cons item items ih =>
    cases items with
    | nil => simp
    | cons next items =>
      rw [String.intercalate_cons_of_ne_nil (List.cons_ne_nil next items), stageNames_append, ih]
      exact List.flatMap_cons.symm

/-- Read item by item, the names are those that the items hold. -/
theorem ItemsHold.flatMap_stageNames {items names : List String} (h : ItemsHold items names) :
    items.flatMap stageNames = names := by
  -- On the items: each one is read on its own, for it has no comma.
  induction h with
  | nil => rfl
  | blank h _ ih =>
    rw [List.flatMap_cons, ih, stageNames_of_no_comma h.no_comma, if_pos (Text.trim_eq_nil h),
      List.nil_append]
  | name before name after hb hn ha _ ih =>
    have htrim : Text.trim (before ++ name ++ after).toList = name.toList := by
      rw [String.toList_append, String.toList_append, Text.trim_padded hb ha, hn.trim]
    have hcomma : ',' ∉ (before ++ name ++ after).toList := by
      simp [hb.no_comma, hn.no_comma, ha.no_comma]
    have hne : name.toList ≠ [] := by simpa using hn.ne_empty
    rw [List.flatMap_cons, ih, stageNames_of_no_comma hcomma, htrim, if_neg hne,
      String.ofList_toList, List.singleton_append]

/-- Parts without commas are items that hold what is left of them when they are trimmed. -/
theorem itemsHold_of_no_comma {parts : List (List Char)} (h : ∀ p ∈ parts, ',' ∉ p) :
    ItemsHold (parts.map String.ofList)
      (((parts.map Text.trim).filter (!·.isEmpty)).map String.ofList) := by
  induction parts with
  | nil => exact .nil
  | cons part parts ih =>
    obtain ⟨hcomma, hparts⟩ := List.forall_mem_cons.1 h
    obtain ⟨before, after, hb, ha, hpart⟩ := Text.exists_padding part
    -- A part whose trimmed text is empty holds no name, and any other holds that text.
    by_cases htrim : Text.trim part = []
    · have hblank : Text.AllBlank (String.ofList part).toList := by
        rw [String.toList_ofList, hpart, htrim, List.append_nil]
        exact List.forall_mem_append.2 ⟨hb, ha⟩
      simpa [htrim] using ItemsHold.blank hblank (ih hparts)
    · have hitem : String.ofList part =
          String.ofList before ++ String.ofList (Text.trim part) ++ String.ofList after := by
        rw [← String.ofList_append, ← String.ofList_append, ← hpart]
      rw [List.map_cons, hitem]
      simpa [htrim] using ItemsHold.name (String.ofList before) (String.ofList (Text.trim part))
        (String.ofList after) (by simpa using hb) (isStageName_trim hcomma htrim)
        (by simpa using ha) (ih hparts)

/-- The parts of a text between its commas are items of a written list. -/
theorem exists_itemsHold (s : String) :
    ∃ items, ItemsHold items (stageNames s) ∧ s = ",".intercalate items := by
  refine ⟨(Text.splitAt ',' s.toList).map String.ofList,
    itemsHold_of_no_comma fun _ => Text.not_mem_of_mem_splitAt, ?_⟩
  apply String.toList_injective
  have hparts : ((Text.splitAt ',' s.toList).map String.ofList).map String.toList =
      Text.splitAt ',' s.toList := by
    simp [Function.comp_def]
  rw [String.toList_intercalate, hparts]
  exact ((Text.joinWith_eq_intercalate ',' _).symm.trans (Text.joinWith_splitAt ',' s.toList)).symm

/-- A comma between two lists joins their names. What is read are names without commas and without
blanks at their ends. Names that are written with any blanks around them and any blank items between
them are read back as they were, and every text is written like that from what is read. So names
that were read and are written again are read as they are. -/
theorem stage_lists_read_as_written (s t : String) :
    stageNames (s ++ "," ++ t) = stageNames s ++ stageNames t ∧
      (∀ name ∈ stageNames s, IsStageName name) ∧
      (∀ items names, ItemsHold items names → stageNames (",".intercalate items) = names) ∧
      (∃ items, ItemsHold items (stageNames s) ∧ s = ",".intercalate items) ∧
      stageNames (",".intercalate (stageNames s)) = stageNames s := by
  have hread (items names : List String) (h : ItemsHold items names) :
      stageNames (",".intercalate items) = names :=
    (stageNames_intercalate items).trans h.flatMap_stageNames
  have hwritten := exists_itemsHold s
  have hnames : ∀ name ∈ stageNames s, IsStageName name := by
    obtain ⟨items, hitems, -⟩ := hwritten
    exact hitems.isStageName
  exact ⟨stageNames_append s t, hnames, hread, hwritten, hread _ _ (.of_names hnames)⟩

namespace Padded

def text : String := ", PreCheck\u3000,\u00a0\t,Post Check,"

def items : List String := ["", " PreCheck\u3000", "\u00a0\t", "Post Check", ""]

theorem itemsHold_items : ItemsHold items ["PreCheck", "Post Check"] := by
  have hfirst : IsStageName "PreCheck" := by decide +kernel
  have hsecond : IsStageName "Post Check" := by decide +kernel
  have hempty : Text.AllBlank "".toList := by decide +kernel
  have hspace : Text.AllBlank " ".toList := by decide +kernel
  have hwide : Text.AllBlank "\u3000".toList := by decide +kernel
  have hblanks : Text.AllBlank "\u00a0\t".toList := by decide +kernel
  exact .blank hempty <| .name " " "PreCheck" "\u3000" hspace hfirst hwide <|
    .blank hblanks <| .name "" "Post Check" "" hempty hsecond hempty <| .blank hempty .nil

end Padded

open Padded in
theorem padded_list_reads_as_written :
    ItemsHold items ["PreCheck", "Post Check"] ∧ stageNames text = ["PreCheck", "Post Check"] ∧
      IsStageName "Post Check" := by
  have htext : text = ",".intercalate items := by decide +kernel
  have hread : stageNames text = ["PreCheck", "Post Check"] := by
    rw [htext]
    exact (stage_lists_read_as_written text text).2.2.1 items _ itemsHold_items
  refine ⟨itemsHold_items, hread, ?_⟩
  apply (stage_lists_read_as_written text text).2.1
  rw [hread]
  simp

end PodRules
