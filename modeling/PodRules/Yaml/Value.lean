import PodRules.Yaml.Layout
import PodRules.Yaml.Node
import PodRules.Yaml.Scalar

namespace PodRules.Yaml

inductive Value where
  | null
  | bool (b : Bool)
  | number (n : Number)
  | string (s : String)
  | sequence (items : List Value)
  | mapping (entries : List (Value × Value))
  | tagged (tag : String) (value : Value)
  deriving Inhabited

namespace Value

def ofScalar : Scalar → Value
  | .null => .null
  | .bool b => .bool b
  | .number n => .number n
  | .text s => .string s

mutual

def same : Value → Value → Bool
  | .null, .null => true
  | .bool a, .bool b => a = b
  | .number a, .number b => a = b
  | .string a, .string b => a = b
  | .sequence as, .sequence bs => sameItems as bs
  | .mapping as, .mapping bs => as.length = bs.length && allIn as bs
  | .tagged s a, .tagged t b => s = t && same a b
  | _, _ => false

def sameItems : List Value → List Value → Bool
  | [], [] => true
  | a :: as, b :: bs => same a b && sameItems as bs
  | _, _ => false

def allIn : List (Value × Value) → List (Value × Value) → Bool
  | [], _ => true
  | (k, v) :: as, bs => bs.any (fun b => same k b.1 && same v b.2) && allIn as bs

end

end Value

def commonStem : String := "tag:yaml.org,2002:"

def kindOf (tag : String) : String :=
  if commonStem.isPrefixOf tag then (tag.drop commonStem.length).toString else ""

def keptTag? (tag : Option String) : Option String :=
  tag.bind fun t =>
    match t.toList with
    | ['!'] => some t
    | '!' :: cs => some (String.ofList cs)
    | _ => none

def withTag (tag : Option String) (v : Value) : Value :=
  match keptTag? tag with
  | none => v
  | some t => .tagged t v

def scalarValue? (tag : Option String) (plain : Bool) (text : String) : Option Value := do
  let s ←
    match tag with
    | some t =>
      if (keptTag? tag).isSome then (if plain then plainScalar? text else some (.text text))
      else taggedScalar? (kindOf t) text
    | none => if plain then plainScalar? text else some (.text text)
  pure (withTag tag (.ofScalar s))

namespace Node

def isAnchored : Node → Bool
  | .alias _ => false
  | .scalar anchored _ _ _ => anchored
  | .sequence anchored _ _ => anchored
  | .mapping anchored _ _ => anchored

mutual

def anchors : Node → List Node
  | .alias n => self (.alias n)
  | .scalar a t p s => self (.scalar a t p s)
  | .sequence a t items => self (.sequence a t items) ++ itemAnchors items
  | .mapping a t entries => self (.mapping a t entries) ++ entryAnchors entries
where
  /-- A node, if it is anchored. -/
  self (n : Node) : List Node := if n.isAnchored then [n] else []

def itemAnchors : List Node → List Node
  | [] => []
  | n :: ns => anchors n ++ itemAnchors ns

def entryAnchors : List (Node × Node) → List Node
  | [] => []
  | (k, v) :: es => anchors k ++ anchors v ++ entryAnchors es

end

mutual

def weight : Node → Nat
  | .alias _ => 1
  | .scalar _ _ _ _ => 1
  | .sequence _ _ items => itemWeights items + 2
  | .mapping _ _ entries => entryWeights entries + 2

def itemWeights : List Node → Nat
  | [] => 0
  | n :: ns => weight n + itemWeights ns

def entryWeights : List (Node × Node) → Nat
  | [] => 0
  | (k, v) :: es => weight k + weight v + entryWeights es

end

end Node

def depthBound : Nat := 128

abbrev Composing := StateT Nat Option

def follow (targets : List (Nat × Node)) : Node → Composing Node
  | .alias number => do
    match ← get with
    | 0 => failure
    | left + 1 => do
      set left
      match targets.lookup number with
      | some n => pure n
      | none => failure
  | n => pure n

def insertNew? (entries : List (Value × Value)) (key value : Value) :
    Option (List (Value × Value)) :=
  if entries.any fun e => key.same e.1 then none else some (entries ++ [(key, value)])

def compose (targets : List (Nat × Node)) : (depth : Nat) → Node → Composing Value
  | 0, n => do
    match ← follow targets n with
    | .scalar _ tag plain text => liftM (scalarValue? tag plain text)
    | _ => failure
  | depth + 1, n => do
    match ← follow targets n with
    | .alias _ => failure
    | .scalar _ tag plain text => liftM (scalarValue? tag plain text)
    | .sequence _ tag items => do
      let vs ← items.mapM fun item => compose targets depth item
      pure (withTag tag (.sequence vs))
    | .mapping _ tag entries => do
      let es ← entries.foldlM (fun es e => do
        let k ← compose targets depth e.1
        let v ← compose targets depth e.2
        liftM (insertNew? es k v)) []
      pure (withTag tag (.mapping es))

/-- How often aliases may be followed for each unit of a document's size. -/
def aliasFactor : Nat := 100

def Document.value? (d : Document) : Option Value :=
  let anchors := d.root.anchors
  let targets := d.places.filterMap fun p => (anchors[p.2]?).map fun n => (p.1, n)
  ((compose targets depthBound d.root).run (d.root.weight * aliasFactor)).map (·.1)

def values? (s : String) : Option (List Value) := do
  let tokens ← tokens? s.toList
  let documents ← documents? tokens
  if documents.isEmpty then pure [.null] else documents.mapM Document.value?

end PodRules.Yaml
