import LeadTime.Error
import LeadTime.Join.Registry
import LeadTime.Stage

/-! What starts the clock of a pipeline, and assembling one: the three groups one after the other, each in its order, and
the start. -/
namespace LeadTime

open Sql

inductive StartTime where
  | anchorCreated
  | commitCreated
  /-- A generic event of one of the types, any when none is given; without one, the other start. -/
  | genericEvent (types : List String) (otherwise : StartTime)
  deriving DecidableEq, Repr

structure StartClause where
  expression : Expr
  demand : Demand
  deriving DecidableEq

def StartTime.typeDemand (types : List String) : Demand :=
  if types.isEmpty then .none
  else
    ⟨[.condition .startEvent (.among (.column "ge" "event_type") Placeholder.startingEventTypes)],
      [(Placeholder.startingEventTypes, .textList types)]⟩

def StartTime.clause (anchor : Anchor) : StartTime → StartClause
  | .anchorCreated => ⟨anchor.createdAt, .none⟩
  | .commitCreated => ⟨.column "c" "committed_at", ⟨[.held .commit], []⟩⟩
  | .genericEvent types otherwise =>
    let rest := clause anchor otherwise
    ⟨.apply "COALESCE" [.column "ge" "event_time", rest.expression],
      rest.demand ++ ⟨[.held .startEvent], []⟩ ++ typeDemand types⟩

structure Pipeline where
  name : String
  stages : List Stage
  anchor : Anchor
  start : StartTime

namespace Pipeline

def stage? (p : Pipeline) (name : String) : Option (Stage × Nat) :=
  p.stages.zipIdx.find? (·.1.name = name)

def stageIndex? (p : Pipeline) (name : String) : Option Nat := (p.stage? name).map Prod.snd

def requireStage (p : Pipeline) (name : String) : Except Error (Stage × Nat) :=
  match p.stage? name with
  | some indexed => .ok indexed
  | none => .error (.stageNotFound name p.name)

def isJobRunStage (s : Stage) : Bool := s.kind?.any EventKind.isJobRun

def lastJobRun? (p : Pipeline) : Option Nat :=
  (p.stages.zipIdx.filter fun pair => isJobRunStage pair.1).getLast?.map Prod.snd

/-- A group by ascending order; stages of one order keep theirs. -/
def sortedGroup (stages : List Stage) : List Stage := stages.mergeSort fun a b => a.order ≤ b.order

/-- The fixed stages that stay: all but the first, when the commit that it waits for starts the clock. -/
def fixedStages (config : PipelineConfig) : List Stage :=
  if config.startsAtCommit then (sortedGroup config.fixed).drop 1 else sortedGroup config.fixed

def stagesOf (config : PipelineConfig) : List Stage :=
  sortedGroup config.preDevelopment ++ fixedStages config ++ sortedGroup config.postDevelopment

/-- A stage's kind must be known, and its entity there to read. -/
def checkStage (anchor : Anchor) (s : Stage) : Except Error Unit :=
  match s.kind? with
  | none => .error (.unknownEventKind s.event.kind)
  | some kind =>
    if kind.needsIssues && !anchor.hasIssues then .error (.stageWithoutIssues s.name kind) else .ok ()

def startOf (config : PipelineConfig) (anchor : Anchor) : Except Error StartTime :=
  let start := if config.startsAtCommit then StartTime.commitCreated else .anchorCreated
  if config.startsAtGenericEvent then
    if anchor.isIssue then .ok (.genericEvent config.startingEventTypes start)
    else .error .genericStartOfPullRequests
  else .ok start

def anchorOf (query : Query) : Anchor := ⟨query.calculation, query.issueSystem⟩

def assemble (config : PipelineConfig) (query : Query) : Except Error Pipeline := do
  let anchor := anchorOf query
  if anchor.isIssue && !anchor.hasIssues then throw .issueVelocityWithoutIssues
  let stages := stagesOf config
  if stages.isEmpty then throw (.emptyPipeline config.name)
  stages.forM (checkStage anchor)
  let start ← startOf config anchor
  return ⟨config.name, stages, anchor, start⟩

end Pipeline
end LeadTime
