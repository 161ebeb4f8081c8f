import PodRules.Text.Blank
import PodRules.Text.Separated

namespace PodRules

def stageNameChars (cs : List Char) : List (List Char) :=
  ((Text.splitAt ',' cs).map Text.trim).filter (!·.isEmpty)

def stageNames (s : String) : List String := (stageNameChars s.toList).map String.ofList

theorem stageNames_append (s t : String) :
    stageNames (s ++ "," ++ t) = stageNames s ++ stageNames t := by
  have h : (s ++ "," ++ t).toList = s.toList ++ ',' :: t.toList := by simp
  simp [stageNames, stageNameChars, h, Text.splitAt_append]

end PodRules
