import PodRules.Json.Basic

namespace PodRules.Json

mutual

def same : Json → Json → Bool
  | .null, .null => true
  | .bool a, .bool b => a = b
  | .int a, .int b => a = b
  | .decimal n a x, .decimal m b y => n = m && a = b && x = y
  | .string a, .string b => a = b
  | .array as, .array bs => sameItems as bs
  | .object as, .object bs => sameMembers as bs
  | .illFormed, .illFormed => true
  | _, _ => false

def sameItems : List Json → List Json → Bool
  | [], [] => true
  | a :: as, b :: bs => same a b && sameItems as bs
  | _, _ => false

def sameMembers : List (String × Json) → List (String × Json) → Bool
  | [], [] => true
  | (k, a) :: as, (l, b) :: bs => k = l && same a b && sameMembers as bs
  | _, _ => false

end

mutual

/-- The test answers yes exactly for equal values. -/
theorem same_iff : (a b : Json) → (same a b = true ↔ a = b)
  | .array as, b => by
    cases b <;> simp only [same, reduceCtorEq, Bool.false_eq_true, Json.array.injEq]
    exact sameItems_iff as _
  | .object as, b => by
    cases b <;> simp only [same, reduceCtorEq, Bool.false_eq_true, Json.object.injEq]
    exact sameMembers_iff as _
  | .null, b => by cases b <;> simp [same]
  | .bool _, b => by cases b <;> simp [same]
  | .int _, b => by cases b <;> simp [same]
  | .decimal _ _ _, b => by cases b <;> simp [same, and_assoc]
  | .string _, b => by cases b <;> simp [same]
  | .illFormed, b => by cases b <;> simp [same]

theorem sameItems_iff : (as bs : List Json) → (sameItems as bs = true ↔ as = bs)
  | [], bs => by cases bs <;> simp [sameItems]
  | a :: as, [] => by simp [sameItems]
  | a :: as, b :: bs => by
    simp only [sameItems, Bool.and_eq_true, same_iff a b, sameItems_iff as bs, List.cons.injEq]

theorem sameMembers_iff : (as bs : List (String × Json)) → (sameMembers as bs = true ↔ as = bs)
  | [], bs => by cases bs <;> simp [sameMembers]
  | (k, a) :: as, [] => by simp [sameMembers]
  | (k, a) :: as, (l, b) :: bs => by
    simp only [sameMembers, Bool.and_eq_true, decide_eq_true_eq, same_iff a b,
      sameMembers_iff as bs, List.cons.injEq, Prod.mk.injEq]

end

instance : DecidableEq Json := fun a b => decidable_of_iff _ (same_iff a b)

end PodRules.Json
