namespace PodRules.Yaml

def isAllowed (c : Char) : Bool :=
  let n := c.toNat
  n = 0x09 || n = 0x0a || n = 0x0d || (0x20 ≤ n && n ≤ 0x7e) || n = 0x85 ||
    (0xa0 ≤ n && n ≤ 0xfffd) || 0x10000 ≤ n

def normalLines : List Char → List Char
  | [] => []
  | '\r' :: '\n' :: cs => '\n' :: normalLines cs
  | c :: cs => (if c = '\r' ∨ c = '\x85' then '\n' else c) :: normalLines cs

def isBreak (c : Char) : Bool := c = '\n' || c = '\u2028' || c = '\u2029'

def isBlank (c : Char) : Bool := c = ' ' || c = '\t'

def orderMark : Char := '\ufeff'

def endsWord : List Char → Bool
  | [] => true
  | c :: _ => isBlank c || isBreak c

def isTriple (c : Char) : List Char → Bool
  | a :: b :: d :: rest => a = c && b = c && d = c && endsWord rest
  | _ => false

def isDocumentMark (cs : List Char) : Bool := isTriple '-' cs || isTriple '.' cs

def isNameChar (c : Char) : Bool := c.isAlphanum || c = '-' || c = '_'

inductive Gap where
  | blanks (cs : List Char)
  | lines (first : List Char) (more : List Char)

namespace Gap

def none : Gap := .blanks []

def escapedLine : Gap := .lines [] []

def isOpen : Gap → Bool
  | .blanks cs => !cs.isEmpty
  | .lines _ _ => true

def hasLine : Gap → Bool
  | .blanks _ => false
  | .lines _ _ => true

def blank (c : Char) : Gap → Gap
  | .blanks cs => .blanks (cs ++ [c])
  | .lines first more => .lines first more

def line (c : Char) : Gap → Gap
  | .blanks _ => .lines [c] []
  | .lines first more => .lines first (more ++ [c])

/-- What the white space is read as: one line feed becomes a space, and before further line ends
it is dropped. -/
def chars : Gap → List Char
  | .blanks cs => cs
  | .lines first more =>
    if first = ['\n'] then (if more.isEmpty then [' '] else more) else first ++ more

end Gap

def lineRest? (cs : List Char) : Option (List Char) :=
  let cs := cs.dropWhile isBlank
  let cs := if cs.head? = some '#' then cs.dropWhile (fun c => !isBreak c) else cs
  match cs with
  | [] => some []
  | c :: rest => if isBreak c then some rest else none

end PodRules.Yaml
