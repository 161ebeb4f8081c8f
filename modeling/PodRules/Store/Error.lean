import PodRules.Object.Key
import PodRules.Selector.Term

namespace PodRules

inductive StoreError where
  | notFound (message : String)
  | conflict (message : String)
  | transient (message : String)
  deriving DecidableEq, Repr

namespace StoreError

def isNotFound : StoreError → Bool
  | .notFound _ => true
  | _ => false

def isConflict : StoreError → Bool
  | .conflict _ => true
  | _ => false

def message : StoreError → String
  | .notFound m => "not_found: " ++ m
  | .conflict m => "conflict: " ++ m
  | .transient m => "transient: " ++ m

end StoreError

instance : JsonForm StoreError where
  toJson
    | .notFound m => .object [("NotFound", .string m)]
    | .conflict m => .object [("Conflict", .string m)]
    | .transient m => .object [("Transient", .string m)]
  ofJson?
    | .object [("NotFound", .string m)] => some (.notFound m)
    | .object [("Conflict", .string m)] => some (.conflict m)
    | .object [("Transient", .string m)] => some (.transient m)
    | _ => none

inductive Failure where
  | store (error : StoreError)
  | retryExhausted (key : ObjectKey) (attempts : Nat)
  | invalidSelector (key : ObjectKey) (error : SelectorError)
  deriving DecidableEq, Repr

def Failure.message : Failure → String
  | .store e => e.message
  | .retryExhausted key attempts =>
    "gave up writing " ++ key.text ++ " after " ++ toString attempts ++ " conflicting attempts"
  | .invalidSelector key e => "invalid selector on ruleset " ++ key.text ++ ": " ++ e.message

end PodRules
