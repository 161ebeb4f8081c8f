import PodRules.Order.SortedMap
import PodRules.Yaml.Value

namespace PodRules.Yaml.Value

def untagged : Value → Value
  | .tagged _ v => untagged v
  | v => v

def text? (v : Value) : Option String :=
  match v.untagged with
  | .string s => some s
  | _ => none

def flag? (v : Value) : Option Bool :=
  match v.untagged with
  | .bool b => some b
  | _ => none

def items? (v : Value) : Option (List Value) :=
  match v.untagged with
  | .null => some []
  | .sequence vs => some vs
  | _ => none

def list? {α : Type} (read? : Value → Option α) (v : Value) : Option (List α) := do
  let vs ← v.items?
  vs.mapM read?

def entries? (v : Value) : Option (List (String × Value)) := do
  let es ←
    match v.untagged with
    | .null => some []
    | .mapping es => some es
    | _ => none
  es.mapM fun e => e.1.text?.map fun k => (k, e.2)

def textMap? (v : Value) : Option (SortedMap String String) := do
  let es ← v.entries?
  let es ← es.mapM fun e => e.2.text?.map fun s => (e.1, s)
  pure (SortedMap.ofList es)

structure Fields where
  entries : List (String × Value)

def fields? (names : List String) (v : Value) : Option Fields := do
  let es ← v.entries?
  if names.all fun n => es.countP (·.1 = n) ≤ 1 then some ⟨es⟩ else none

namespace Fields

variable {α : Type} (fs : Fields) (name : String) (read? : Value → Option α)

def required? : Option α := (fs.entries.lookup name).bind read?

def defaulted? (default : α) : Option α :=
  match fs.entries.lookup name with
  | none => some default
  | some v => read? v

def optional? : Option (Option α) :=
  match fs.entries.lookup name with
  | none => some none
  | some .null => some none
  | some v => (read? v).map some

def list? : Option (List α) := fs.defaulted? name (Value.list? read?) []

end Fields

end PodRules.Yaml.Value
