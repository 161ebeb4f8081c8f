namespace PodRules.CommandLine

inductive Word where
  /-- Two hyphens alone: no word after them is an option. -/
  | separator
  /-- An option by its long name, with the text after an equals sign. -/
  | long (name : String) (value : Option String)
  /-- Options by their letters. -/
  | letters (first : Char)
  /-- Anything else. A hyphen alone is such a word. -/
  | plain (text : String)
  deriving DecidableEq, Repr

namespace Word

def ofLong (cs : List Char) : Word :=
  let name := String.ofList (cs.takeWhile (· ≠ '='))
  match cs.dropWhile (· ≠ '=') with
  | _ :: value => .long name (some (String.ofList value))
  | [] => .long name none

def ofText (s : String) : Word :=
  match s.toList with
  | ['-', '-'] => .separator
  | '-' :: '-' :: cs => ofLong cs
  | '-' :: c :: _ => .letters c
  | _ => .plain s

end Word

end PodRules.CommandLine
