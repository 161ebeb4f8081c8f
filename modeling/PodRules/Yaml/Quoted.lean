import PodRules.Json.Parser
import PodRules.Yaml.Text

namespace PodRules.Yaml

def escapedChar? (c : Char) : Option Char :=
  match c with
  | '0' => some '\x00'
  | 'a' => some '\x07'
  | 'b' => some '\x08'
  | 't' => some '\t'
  | '\t' => some '\t'
  | 'n' => some '\n'
  | 'v' => some '\x0b'
  | 'f' => some '\x0c'
  | 'r' => some '\r'
  | 'e' => some '\x1b'
  | ' ' => some ' '
  | '"' => some '"'
  | '/' => some '/'
  | '\\' => some '\\'
  | 'N' => some '\x85'
  | '_' => some '\xa0'
  | 'L' => some '\u2028'
  | 'P' => some '\u2029'
  | _ => none

def hexChar? (ds : List Char) : Option Char := do
  let values ← ds.mapM Json.hexDigit?
  let n := values.foldl (fun n d => n * 16 + d) 0
  if n.isValidChar then some (Char.ofNat n) else none

def singleQuoted? : Gap → (column : Nat) → List Char → Option (List Char × List Char)
  | _, _, [] => none
  | gap, column, '\'' :: '\'' :: cs => do
    let (t, rest) ← singleQuoted? .none (column + 2) cs
    pure (gap.chars ++ '\'' :: t, rest)
  | gap, column, c :: cs =>
    if isBreak c then singleQuoted? (gap.line c) 0 cs
    else if isBlank c then singleQuoted? (gap.blank c) (column + 1) cs
    else if column = 0 ∧ isDocumentMark (c :: cs) then none
    else if c = '\'' then some (gap.chars, cs)
    else do
      let (t, rest) ← singleQuoted? .none (column + 1) cs
      pure (gap.chars ++ c :: t, rest)

def doubleQuoted? : Gap → (column : Nat) → List Char → Option (List Char × List Char)
  | _, _, [] => none
  | gap, column, '\\' :: 'x' :: a :: b :: cs => do
    let e ← hexChar? [a, b]
    let (t, rest) ← doubleQuoted? .none (column + 4) cs
    pure (gap.chars ++ e :: t, rest)
  | gap, column, '\\' :: 'u' :: a :: b :: c :: d :: cs => do
    let e ← hexChar? [a, b, c, d]
    let (t, rest) ← doubleQuoted? .none (column + 6) cs
    pure (gap.chars ++ e :: t, rest)
  | gap, column, '\\' :: 'U' :: a :: b :: c :: d :: e :: f :: g :: h :: cs => do
    let x ← hexChar? [a, b, c, d, e, f, g, h]
    let (t, rest) ← doubleQuoted? .none (column + 10) cs
    pure (gap.chars ++ x :: t, rest)
  | gap, column, '\\' :: c :: cs =>
    if isBreak c then do
      let (t, rest) ← doubleQuoted? .escapedLine 0 cs
      pure (gap.chars ++ t, rest)
    else do
      let e ← escapedChar? c
      let (t, rest) ← doubleQuoted? .none (column + 2) cs
      pure (gap.chars ++ e :: t, rest)
  | gap, column, c :: cs =>
    if isBreak c then doubleQuoted? (gap.line c) 0 cs
    else if isBlank c then doubleQuoted? (gap.blank c) (column + 1) cs
    else if column = 0 ∧ isDocumentMark (c :: cs) then none
    else if c = '"' then some (gap.chars, cs)
    else if c = '\\' then none
    else do
      let (t, rest) ← doubleQuoted? .none (column + 1) cs
      pure (gap.chars ++ c :: t, rest)

end PodRules.Yaml
