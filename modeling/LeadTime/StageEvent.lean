import LeadTime.Error
import LeadTime.JobRun.Filter

/-! The event of a stage with its parameters resolved, one variant for each kind. -/
namespace LeadTime

/-- Which of several rows of one stage counts: the earliest or the latest. -/
inductive Aggregate where
  | min
  | max
  deriving DecidableEq, Repr

def Aggregate.function : Aggregate → String
  | .min => "MIN"
  | .max => "MAX"

structure BranchFilter where
  source : List String
  target : List String
  sourcePattern : Option String
  targetPattern : Option String
  deriving DecidableEq, Repr

def BranchFilter.ofEvent (e : Event) (patterns : Bool) : BranchFilter :=
  let first (name : String) := if patterns then (e.paramValues name).head? else none
  ⟨e.paramValues "source_branches", e.paramValues "target_branches", first "source_branches_regex",
    first "target_branches_regex"⟩

/-- The jobs that a run may belong to and the parameters it may have had. -/
structure RunMatch where
  jobIds : List String
  params : List (String × List String)
  deriving DecidableEq, Repr

/-- The jobs and parameters that an event names, but for the parameters of reserved names. -/
def RunMatch.ofEvent (e : Event) (reserved : List String) : RunMatch :=
  ⟨e.values, e.params.entries.filter fun pair => !reserved.any (Text.sameLetters · pair.1)⟩

inductive StageEvent where
  | statusReached (statuses : List String)
  | commitCreated
  | prCreated (branches : BranchFilter)
  /-- Any label where none is given. -/
  | prLabelAdded (labels : Option (List String))
  | prReviewStarted
  | prApproved (aggregate : Aggregate)
  | prMerged (branches : BranchFilter)
  | jobRun (runs : RunMatch) (filter : RunFilter)
  | deployJobRun (runs : RunMatch) (marker : String) (buildJobIds : List String)
  | ciJobRun (runs : RunMatch) (filter : RunFilter)
  | cdJobRun (runs : RunMatch) (filter : RunFilter)
  | thirdPartyCiJobRun (runs : RunMatch)
  | genericEvent (types : List String)
  deriving DecidableEq, Repr

namespace StageEvent

def kind : StageEvent → EventKind
  | .statusReached _ => .statusReached
  | .commitCreated => .commitCreated
  | .prCreated _ => .prCreated
  | .prLabelAdded _ => .prLabelAdded
  | .prReviewStarted => .prReviewStarted
  | .prApproved _ => .prApproved
  | .prMerged _ => .prMerged
  | .jobRun .. => .jobRun
  | .deployJobRun .. => .deployJobRun
  | .ciJobRun .. => .ciJobRun
  | .cdJobRun .. => .cdJobRun
  | .thirdPartyCiJobRun _ => .thirdPartyCiJobRun
  | .genericEvent _ => .genericEvent

/-- The parameter that names the build of a deployment. -/
def markerParam : String := "deploy_job_marker"

def buildJobsParam : String := "build_job_ids"

/-- The first approval counts, unless the event asks for the last. -/
def approvalAggregate (e : Event) : Aggregate :=
  match e.paramValues "approval" with
  | value :: _ => if Text.sameLetters value "max" then .max else .min
  | [] => .min

def filterOf (s : Stage) : Except Error RunFilter :=
  match RunFilter.ofRaw s.filter with
  | .ok filter => .ok filter
  | .error fault => .error (.invalidFilter s.name fault)

def markerOf (s : Stage) : Except Error String :=
  match s.event.paramValues markerParam with
  | marker :: _ => if marker.isEmpty then .error missing else .ok marker
  | [] => .error missing
where
  missing : Error := .missingParam s.name markerParam

def ofStage (s : Stage) : Except Error StageEvent :=
  let e := s.event
  match s.kind? with
  | none => .error (.unknownEventKind e.kind)
  | some .statusReached => .ok (.statusReached e.values)
  | some .commitCreated => .ok .commitCreated
  | some .prCreated => .ok (.prCreated (.ofEvent e false))
  | some .prLabelAdded => .ok (.prLabelAdded (if e.anyLabelAdded then none else some e.values))
  | some .prReviewStarted => .ok .prReviewStarted
  | some .prApproved => .ok (.prApproved (approvalAggregate e))
  | some .prMerged => .ok (.prMerged (.ofEvent e true))
  | some .jobRun => (filterOf s).map (.jobRun (.ofEvent e []))
  | some .deployJobRun => (markerOf s).map fun marker =>
      .deployJobRun (.ofEvent e [markerParam, buildJobsParam]) marker (e.paramValues buildJobsParam)
  | some .ciJobRun => (filterOf s).map (.ciJobRun (.ofEvent e []))
  | some .cdJobRun => (filterOf s).map (.cdJobRun (.ofEvent e []))
  | some .thirdPartyCiJobRun => .ok (.thirdPartyCiJobRun (.ofEvent e []))
  | some .genericEvent => .ok (.genericEvent e.values)

end StageEvent
end LeadTime
