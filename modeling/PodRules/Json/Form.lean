import PodRules.Json.Basic
import PodRules.Order.SortedMap
import PodRules.Order.SortedSet

namespace PodRules

class JsonForm (α : Type) where
  toJson : α → Json
  ofJson? : Json → Option α

export JsonForm (toJson ofJson?)

instance : JsonForm String where
  toJson := .string
  ofJson?
    | .string s => some s
    | _ => none

instance : JsonForm Bool where
  toJson := .bool
  ofJson?
    | .bool b => some b
    | _ => none

instance : JsonForm Int64 where
  toJson i := .int i.toInt
  ofJson?
    | .int i =>
      if Int64.minValue.toInt ≤ i ∧ i ≤ Int64.maxValue.toInt then some (Int64.ofInt i) else none
    | _ => none

instance {α : Type} [JsonForm α] : JsonForm (List α) where
  toJson xs := .array (xs.map toJson)
  ofJson?
    | .array items => items.mapM ofJson?
    | _ => none

instance {α : Type} [JsonForm α] : JsonForm (SortedMap String α) where
  toJson m := .object (m.entries.map fun e => (e.1, toJson e.2))
  ofJson?
    | .object ms => (ms.mapM fun m => (ofJson? m.2).map fun v => (m.1, v)).map SortedMap.ofList
    | _ => none

instance {α : Type} [Ord α] [Std.TransOrd α] [Std.LawfulEqOrd α] [JsonForm α] :
    JsonForm (SortedSet α) where
  toJson s := toJson s.toList
  ofJson? j := (ofJson? j : Option (List α)).map SortedSet.ofList

namespace Json

def fields? (names : List String) : Json → Option (List (Option Json))
  | .object ms =>
    if names.all fun n => ms.countP (·.1 = n) ≤ 1 then some (names.map fun n => ms.lookup n)
    else none
  | .array items =>
    if items.length ≤ names.length then
      some (items.map some ++ List.replicate (names.length - items.length) none)
    else none
  | _ => none

variable {α : Type} [JsonForm α]

def required? (field : Option Json) : Option α := field.bind ofJson?

def defaulted? (default : α) : Option Json → Option α
  | none => some default
  | some j => ofJson? j

def optional? : Option Json → Option (Option α)
  | none => some none
  | some .null => some none
  | some j => (ofJson? j).map some

/-- A member of an object that may be missing, null or repeated: every occurrence has to be
readable and the last one counts. -/
def lenient? (name : String) (ms : List (String × Json)) : Option (Option α) :=
  ((ms.filter (·.1 = name)).mapM fun m => optional? (some m.2)).map fun vs => vs.getLast?.join

def field (name : String) (v : α) : Option (String × Json) := some (name, toJson v)

def present (name : String) (v : Option α) : Option (String × Json) :=
  v.map fun v => (name, toJson v)

def nonEmpty (name : String) (vs : List α) : Option (String × Json) :=
  if vs.isEmpty then none else some (name, toJson vs)

end Json

end PodRules
