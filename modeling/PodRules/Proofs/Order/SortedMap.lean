import PodRules.Order.SortedMap

namespace PodRules.SortedMap

theorem look_filter_value {κ α : Type} [Ord κ] [Std.OrientedOrd κ] [Std.LawfulEqOrd κ]
    (p : κ → α → Bool) {es : List (κ × α)}
    (hes : es.Pairwise fun a b => compare a.1 b.1 = .lt) (k : κ) :
    look k (es.filter fun e => p e.1 e.2) = (look k es).filter (p k) := by
  induction es with
  | nil => rfl
  | cons e es ih =>
    obtain ⟨hlt, hrest⟩ := List.pairwise_cons.1 hes
    rw [List.filter_cons]
    by_cases hk : compare k e.1 = .eq
    · obtain rfl := Std.LawfulEqOrd.eq_of_compare hk
      -- No later entry has this key.
      have hlater : look e.1 (es.filter fun e => p e.1 e.2) = none :=
        look_eq_none_of_lt fun d hd => hlt d (List.mem_filter.1 hd).1
      by_cases hp : p e.1 e.2 = true
      · simp [look, hp, Option.filter]
      · simp [look, hp, hlater, Option.filter]
    · by_cases hp : p e.1 e.2 = true
      · simp [look, hp, hk, ih hrest]
      · simp [look, hp, hk, ih hrest]

/-- Filtering a map filters what each key has, since no key stands twice in it. -/
theorem get?_filter {κ α : Type} [Ord κ] [Std.OrientedOrd κ] [Std.LawfulEqOrd κ]
    (m : SortedMap κ α) (p : κ → α → Bool) (k : κ) :
    (m.filter p).get? k = (m.get? k).filter (p k) :=
  look_filter_value p m.ascending k

theorem get?_mapValues {κ α β : Type} [Ord κ] [Std.LawfulEqOrd κ] (m : SortedMap κ α)
    (f : κ → α → β) (k : κ) : (m.mapValues f).get? k = (m.get? k).map (f k) := by
  obtain ⟨entries, ascending⟩ := m
  show look k (entries.map fun e => (e.1, f e.1 e.2)) = (look k entries).map (f k)
  clear ascending
  induction entries with
  | nil => rfl
  | cons e es ih =>
    rw [List.map_cons]
    by_cases hk : compare k e.1 = .eq
    · have he := Std.LawfulEqOrd.eq_of_compare hk
      subst he
      simp [look]
    · simp [look, hk, ih]

theorem mem_of_look {κ α : Type} [Ord κ] [Std.LawfulEqOrd κ] {k : κ} {v : α}
    {es : List (κ × α)} (h : look k es = some v) : (k, v) ∈ es := by
  induction es with
  | nil => cases h
  | cons e es ih =>
    by_cases hk : compare k e.1 = .eq
    · obtain rfl := Std.LawfulEqOrd.eq_of_compare hk
      simp only [look, hk, if_true, Option.some.injEq] at h
      exact h ▸ List.mem_cons_self ..
    · simp only [look, hk, if_false] at h
      exact List.mem_cons_of_mem _ (ih h)

/-- In ascending order, every entry is the one that is found under its key. -/
theorem look_of_mem {κ α : Type} [Ord κ] [Std.OrientedOrd κ] {e : κ × α} {es : List (κ × α)}
    (hes : es.Pairwise fun a b => compare a.1 b.1 = .lt) (h : e ∈ es) :
    look e.1 es = some e.2 := by
  induction es with
  | nil => cases h
  | cons d es ih =>
    obtain ⟨hlt, hrest⟩ := List.pairwise_cons.1 hes
    rcases List.mem_cons.1 h with rfl | h
    · simp [look, Std.ReflCmp.compare_self]
    · -- The first key is smaller than all later ones.
      have hne : compare e.1 d.1 ≠ .eq := by
        rw [@Std.OrientedCmp.eq_swap _ compare, hlt e h]
        decide
      simp only [look, hne, if_false]
      exact ih hrest h

/-- The values of a map are what its look-ups find. -/
theorem mem_values {κ α : Type} [Ord κ] [Std.OrientedOrd κ] [Std.LawfulEqOrd κ]
    {m : SortedMap κ α} {v : α} : v ∈ m.values ↔ ∃ k, m.get? k = some v := by
  constructor
  · intro h
    obtain ⟨e, he, rfl⟩ := List.mem_map.1 h
    exact ⟨e.1, look_of_mem m.ascending he⟩
  · rintro ⟨k, hk⟩
    exact List.mem_map.2 ⟨(k, v), mem_of_look hk, rfl⟩

/-- Writes for the entries of a map, each from the value that is there, act key by key. -/
theorem get?_foldl_insert {α β : Type} (g : String → β → Option α → α)
    {es : List (String × β)} (hes : es.Pairwise fun a b => compare a.1 b.1 = .lt)
    (m : SortedMap String α) (k : String) :
    (es.foldl (fun m e => m.insert e.1 (g e.1 e.2 (m.get? e.1))) m).get? k =
      match look k es with
      | some v => some (g k v (m.get? k))
      | none => m.get? k := by
  -- On the entries: their keys ascend, so each key is written once.
  induction es generalizing m with
  | nil => rfl
  | cons e es ih =>
    obtain ⟨hlt, hrest⟩ := List.pairwise_cons.1 hes
    rw [List.foldl_cons, ih hrest, get?_insert]
    by_cases hk : k = e.1
    · subst hk
      rw [look_eq_none_of_lt hlt]
      simp [look, Std.ReflCmp.compare_self]
    · have hne : compare k e.1 ≠ .eq := fun h => hk (Std.LawfulEqOrd.eq_of_compare h)
      simp only [look, hne, hk, if_false]

theorem mem_keys {κ α : Type} [Ord κ] [Std.OrientedOrd κ] [Std.LawfulEqOrd κ]
    {m : SortedMap κ α} {k : κ} : k ∈ m.keys ↔ m.get? k ≠ none := by
  rw [Option.ne_none_iff_exists']
  constructor
  · intro h
    obtain ⟨e, he, rfl⟩ := List.mem_map.1 h
    exact ⟨e.2, look_of_mem m.ascending he⟩
  · rintro ⟨v, hv⟩
    exact List.mem_map.2 ⟨(k, v), mem_of_look hv, rfl⟩

/-- Of the entries of a list with one key the last one counts. -/
theorem get?_ofList {α : Type} (es : List (String × α)) (k : String) :
    (ofList es).get? k = (es.reverse.find? (·.1 = k)).map (·.2) := by
  have hfold : ∀ m : SortedMap String α, (es.foldl (fun m e => m.insert e.1 e.2) m).get? k =
      ((es.reverse.find? (·.1 = k)).map (·.2)).or (m.get? k) := by
    induction es with
    | nil => exact fun m => rfl
    | cons e es ih =>
      intro m
      rw [List.foldl_cons, ih, get?_insert, List.reverse_cons, List.find?_append]
      by_cases hk : e.1 = k
      · cases hlater : es.reverse.find? (·.1 = k) <;> simp [hk]
      · cases hlater : es.reverse.find? (·.1 = k) <;> simp [hk, Ne.symm hk]
  rw [ofList, hfold]
  exact Option.or_none

theorem ofList_entries {α : Type} (m : SortedMap String α) : ofList m.entries = m := by
  apply ext
  intro k
  have hwrites := get?_foldl_insert (fun _ v _ => v) m.ascending empty k
  rw [ofList, hwrites]
  show _ = look k m.entries
  cases look k m.entries with
  | none => rfl
  | some v => rfl

/-- What ascends strictly has no repetitions. -/
theorem nodup_of_ascending {α : Type} [Ord α] [Std.ReflOrd α] {xs : List α}
    (h : xs.Pairwise fun a b => compare a b = .lt) : xs.Nodup := by
  apply h.imp
  intro a b hlt heq
  have hself : compare b b = .eq := Std.ReflCmp.compare_self
  rw [heq, hself] at hlt
  cases hlt

theorem nodup_keys {κ α : Type} [Ord κ] [Std.ReflOrd κ] (m : SortedMap κ α) : m.keys.Nodup :=
  nodup_of_ascending (List.pairwise_map.2 m.ascending)

end PodRules.SortedMap
