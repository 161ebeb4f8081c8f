import PodRules.Stage.Result

/-!
The reports of all stages merged into one. A report is merged with the position of its stage in
the pipeline, so that the order in which stages complete leaves no trace: the stage of a target is
the one of the highest position that named it, and all lists are sorted at the end.
-/

namespace PodRules

structure PipelineResult where
  interval : Option Duration
  retry : Bool
  ruleStates : List RuleState
  details : SortedMap String Detail
  deriving DecidableEq, Inhabited

structure Placed where
  position : Nat
  detail : Detail
  deriving DecidableEq, Inhabited

structure Tally where
  interval : Option Duration
  retry : Bool
  ruleStates : List RuleState
  details : SortedMap String Placed
  deriving DecidableEq, Inhabited

namespace Tally

def empty : Tally := ⟨none, false, [], ∅⟩

def minInterval : Option Duration → Option Duration → Option Duration
  | none, b => b
  | some a, none => some a
  | some a, some b => some (a.min b)

def touch (position : Nat) (stage target : String) (passed : List String)
    (reject : Option RejectInfo) (details : SortedMap String Placed) :
    SortedMap String Placed :=
  let old := (details.get? target).getD ⟨position, .new target stage⟩
  let placed :=
    if old.position ≤ position then ⟨position, { old.detail with stage }⟩ else old
  let detail := placed.detail.addPassed passed
  let detail := match reject with
    | some r => detail.addRejection r
    | none => detail
  details.insert target { placed with detail }

/-- Merges the report of the stage at a position: first the targets that passed rules, with their
rejections, then the targets that were only rejected. -/
def add (position : Nat) (stage : String) (r : StageResult) (a : Tally) : Tally :=
  let passed := r.passRules.entries.foldl (fun ds e =>
    touch position stage e.1 e.2.toList (r.rejected.get? e.1) ds) a.details
  let onlyRejected := r.rejected.filter fun target _ => !r.passRules.contains target
  let details := onlyRejected.entries.foldl (fun ds e =>
    touch position stage e.1 [] (some e.2) ds) passed
  { interval := minInterval a.interval r.interval
    retry := a.retry || r.retry
    ruleStates := a.ruleStates ++ r.ruleStates
    details }

def canonicalDetail (d : Detail) : Detail :=
  { d with
    passedRules := (SortedSet.ofList d.passedRules).toList
    rejectInfo := sortBy (fun a b => (compare a b).isLE) d.rejectInfo
    passed := d.rejectInfo.isEmpty }

def total (a : Tally) : PipelineResult where
  interval := a.interval
  retry := a.retry
  ruleStates := sortBy (fun a b => (compare a b).isLE) a.ruleStates
  details := a.details.mapValues fun _ p => canonicalDetail p.detail

end Tally

structure Completion where
  position : Nat
  stage : String
  report : Option StageResult
  deriving DecidableEq, Inhabited

namespace Completion

def addTo (a : Tally) (c : Completion) : Tally :=
  match c.report with
  | some r => a.add c.position c.stage r
  | none => a

def combine (cs : List Completion) : PipelineResult :=
  (cs.foldl addTo .empty).total

end Completion

end PodRules
