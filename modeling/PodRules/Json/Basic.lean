import PodRules.Order.Sorting

namespace PodRules

/--
A JSON value. `decimal` is a number that is not a plain integer, with the value of its digits
times a power of ten; `-0` is one of them. `illFormed` is a string, or an object with a key, that
escapes half of a surrogate pair: it is grammatical and can be skipped, but it denotes no text.
-/
inductive Json where
  | null
  | bool (b : Bool)
  | int (i : Int)
  | decimal (negative : Bool) (digits : Nat) (exponent : Int)
  | string (s : String)
  | array (items : List Json)
  | object (members : List (String × Json))
  | illFormed
  deriving Inhabited

namespace Json

def members : Json → List (String × Json)
  | .object ms => ms
  | _ => []

def get? (j : Json) (name : String) : Option Json := j.members.lookup name

def ofMembers (ms : List (Option (String × Json))) : Json := .object (ms.filterMap id)

mutual

def sortKeys : Json → Json
  | .array items => .array (sortItems items)
  | .object members =>
    .object (sortBy (fun a b => decide (a.1 ≤ b.1)) (sortMembers members))
  | j => j

def sortItems : List Json → List Json
  | [] => []
  | j :: js => sortKeys j :: sortItems js

def sortMembers : List (String × Json) → List (String × Json)
  | [] => []
  | (k, j) :: ms => (k, sortKeys j) :: sortMembers ms

end

end Json

end PodRules
