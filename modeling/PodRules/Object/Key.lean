import PodRules.Json.Form

namespace PodRules

structure ObjectKey where
  namespaceName : String
  name : String
  deriving DecidableEq, Repr, Inhabited

namespace ObjectKey

instance : Ord ObjectKey where
  compare a b := (compare a.namespaceName b.namespaceName).then (compare a.name b.name)

theorem compare_def (a b : ObjectKey) :
    compare a b = (compare a.namespaceName b.namespaceName).then (compare a.name b.name) := rfl

instance : Std.LawfulEqOrd ObjectKey where
  compare_self {a} := by simp [compare_def, Std.ReflCmp.compare_self]
  eq_of_compare {a b} h := by
    rw [compare_def, Ordering.then_eq_eq] at h
    cases a; cases b
    simp only [ObjectKey.mk.injEq]
    exact ⟨Std.LawfulEqOrd.eq_of_compare h.1, Std.LawfulEqOrd.eq_of_compare h.2⟩

instance : Std.TransOrd ObjectKey :=
  inferInstanceAs (Std.TransCmp (compareLex (compareOn ObjectKey.namespaceName)
    (compareOn ObjectKey.name)))

def text (k : ObjectKey) : String := k.namespaceName ++ "/" ++ k.name

instance : ToString ObjectKey := ⟨text⟩

def ofText (s : String) : ObjectKey :=
  let cs := s.toList
  match cs.dropWhile (· ≠ '/') with
  | _ :: name => ⟨String.ofList (cs.takeWhile (· ≠ '/')), String.ofList name⟩
  | [] => ⟨"", s⟩

end ObjectKey

instance : JsonForm ObjectKey where
  toJson k := .ofMembers [Json.field "namespace" k.namespaceName, Json.field "name" k.name]
  ofJson? j :=
    match j.fields? ["namespace", "name"] with
    | some [ns, name] => do
      let ns ← Json.required? ns
      let name ← Json.required? name
      pure ⟨ns, name⟩
    | _ => none

end PodRules
