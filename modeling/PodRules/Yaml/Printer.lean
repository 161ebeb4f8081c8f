import PodRules.Json.Printer
import PodRules.Yaml.Scalar

namespace PodRules.Yaml

def isPlainChar (c : Char) : Bool := c.isAlphanum || c = '.' || c = '/' || c = '-' || c = '_'

def isPlainText (s : String) : Bool :=
  s.toList.all isPlainChar && s.toList.head?.any Char.isAlpha && plainScalar? s = some (.text s)

def scalarText : Json → String
  | .string s => if isPlainText s then s else (Json.string s).text
  | j => j.text

abbrev Block := List String

def indented (blanks : String) (lines : Block) : Block := lines.map (blanks ++ ·)

def asItem : Block → Block
  | [] => ["-"]
  | line :: lines => ("- " ++ line) :: indented "  " lines

mutual

def blockOf : Json → Block
  | .object [] => ["\x7b\x7d"]
  | .object (m :: ms) => entryLines m ++ entriesLines ms
  | .array [] => ["[]"]
  | .array (j :: js) => asItem (blockOf j) ++ itemsLines js
  | j => [scalarText j]

def itemsLines : List Json → Block
  | [] => []
  | j :: js => asItem (blockOf j) ++ itemsLines js

def entriesLines : List (String × Json) → Block
  | [] => []
  | m :: ms => entryLines m ++ entriesLines ms

def entryLines : String × Json → Block
  | (key, .object (m :: ms)) => (key ++ ":") :: indented "  " (entryLines m ++ entriesLines ms)
  | (key, .array (j :: js)) => (key ++ ":") :: (asItem (blockOf j) ++ itemsLines js)
  | (key, .object []) => [key ++ ": \x7b\x7d"]
  | (key, .array []) => [key ++ ": []"]
  | (key, j) => [key ++ ": " ++ scalarText j]

end

def text (j : Json) : String := String.join ((blockOf j).map (· ++ "\n"))

end PodRules.Yaml
