import PodRules.Json.Form
import PodRules.Json.Number
import PodRules.Time.Instant

/-!
What values of a certain shape look like. A value is read into its normal form: members that the
shape does not know and members that are null are dropped, what is required and missing is filled
in, times are whole seconds, and the last one of members with one name counts.
-/

namespace PodRules

inductive Shape where
  /-- Anything that can be read whole. -/
  | any
  | text
  | flag
  | int32
  | int64
  | time
  /-- A 32-bit number or a text. -/
  | numberOrText
  | list (item : Shape)
  | map (value : Shape)
  | record (fields : List (String × Shape))
  /-- A field that is always there. -/
  | required (shape : Shape)
  deriving Inhabited

namespace Json

mutual

def whole? : (depth : Nat) → Json → Option Json
  | _, .illFormed => none
  | _, .int i => if isFloat i.natAbs 0 then some (.int i) else none
  | _, .decimal negative digits exponent =>
    if isFloat digits exponent then some (.decimal negative digits exponent) else none
  | depth, .array js =>
    if depth = 0 then none else (wholeItems? (depth - 1) js).map .array
  | depth, .object ms =>
    if depth = 0 then none
    else (wholeMembers? (depth - 1) ms).map fun ms => .object (SortedMap.ofList ms).entries
  | _, j => some j

def wholeItems? : Nat → List Json → Option (List Json)
  | _, [] => some []
  | depth, j :: js => do
    let j ← whole? depth j
    let js ← wholeItems? depth js
    pure (j :: js)

def wholeMembers? : Nat → List (String × Json) → Option (List (String × Json))
  | _, [] => some []
  | depth, (k, j) :: ms => do
    let j ← whole? depth j
    let ms ← wholeMembers? depth ms
    pure ((k, j) :: ms)

end

def depthLimit : Nat := 127

end Json

namespace Shape

def innerDepth : Nat := Json.depthLimit - 4

def integer? (width : Nat) (i : Int) : Option Json :=
  if -(Int.pow 2 (width - 1)) ≤ i ∧ i < Int.pow 2 (width - 1) then some (.int i) else none

mutual

def blank : Shape → Json
  | .any => .null
  | .text => .string ""
  | .flag => .bool false
  | .int32 => .int 0
  | .int64 => .int 0
  | .time => .null
  | .numberOrText => .int 0
  | .list _ => .array []
  | .map _ => .object []
  | .record fields => .object (blankFields fields)
  | .required shape => blank shape

def blankFields : List (String × Shape) → List (String × Json)
  | [] => []
  | (name, .required shape) :: fields => (name, blank shape) :: blankFields fields
  | _ :: fields => blankFields fields

end

/-- A field of a record in normal form: every occurrence has to be readable, and the last one
counts unless it is null. -/
def field? (name : String) (read? : Json → Option Json) (missing : Option Json)
    (ms : List (String × Json)) : Option (List (String × Json)) := do
  let vs ← (ms.filter (·.1 = name)).mapM fun m =>
    match m.2 with
    | .null => some none
    | j => (read? j).map some
  pure (((vs.getLast?.join).or missing).toList.map fun j => (name, j))

mutual

def normal? : Shape → Json → Option Json
  | .any, j => j.whole? innerDepth
  | .text, .string s => some (.string s)
  | .flag, .bool b => some (.bool b)
  | .int32, .int i => integer? 32 i
  | .int64, .int i => integer? 64 i
  | .time, .string s => (Instant.parse? s).map toJson
  | .numberOrText, .int i => integer? 32 i
  | .numberOrText, .string s => some (.string s)
  | .list item, .array js => (js.mapM (normal? item)).map .array
  | .map value, .object ms =>
    (ms.mapM fun m => (normal? value m.2).map fun j => (m.1, j)).map fun ms =>
      .object (SortedMap.ofList ms).entries
  | .record fields, .object ms => (normalFields? fields ms).map .object
  | .required shape, j => normal? shape j
  | _, _ => none

def normalFields? : List (String × Shape) → List (String × Json) → Option (List (String × Json))
  | [], _ => some []
  | (name, .required shape) :: fields, ms => do
    let first ← field? name (normal? shape) (some (blank shape)) ms
    let rest ← normalFields? fields ms
    pure (first ++ rest)
  | (name, shape) :: fields, ms => do
    let first ← field? name (normal? shape) none ms
    let rest ← normalFields? fields ms
    pure (first ++ rest)

end

end Shape

end PodRules
