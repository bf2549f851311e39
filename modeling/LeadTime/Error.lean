import LeadTime.EventKind
import LeadTime.JobRun.Filter
import LeadTime.Query

/-! Why a request cannot be compiled, and what a message says about it; and what a compilation leaves aside without
failing. -/
namespace LeadTime

inductive LimitSide where
  | lower
  | upper
  deriving DecidableEq, Repr

def LimitSide.name : LimitSide → String
  | .lower => "lower"
  | .upper => "upper"

inductive Error where
  | emptyPage
  | pageOutOfRange (page size : Nat)
  | noBuckets
  | noTargetStage (across : Across)
  | noStackDimension
  | limitOutOfRange (side : LimitSide) (stage : String)
  | unknownEventKind (text : String)
  | stageNotFound (stage pipeline : String)
  | issueVelocityWithoutIssues
  | stageWithoutIssues (stage : String) (kind : EventKind)
  | genericStartOfPullRequests
  | stackWithoutIssues
  | stackValuesWithoutIssues
  | cdWithoutCi (stage : String)
  | missingParam (stage param : String)
  | invalidThresholds (good needsAttention : Int) (stage : String)
  | invalidFilter (stage : String) (fault : FilterFault)
  | emptyPipeline (pipeline : String)
  | missingIntegrationIds (calculation : Calculation)
  | refusedFilter (reason : String)

namespace Error

/-- The kinds of error, as callers tell them apart. -/
inductive Kind where
  | configuration
  | unknownEventKind
  | stageNotFound
  | unsupportedCombination
  | missingParam
  | invalidThresholds
  | invalidFilter
  | emptyPipeline
  | missingIntegrationIds
  | refusedFilter
  deriving DecidableEq, Repr

def kind : Error → Kind
  | .emptyPage | .pageOutOfRange .. | .noBuckets | .noTargetStage _ | .noStackDimension
  | .limitOutOfRange .. => .configuration
  | .unknownEventKind _ => .unknownEventKind
  | .stageNotFound .. => .stageNotFound
  | .issueVelocityWithoutIssues | .stageWithoutIssues .. | .genericStartOfPullRequests
  | .stackWithoutIssues | .stackValuesWithoutIssues | .cdWithoutCi _ => .unsupportedCombination
  | .missingParam .. => .missingParam
  | .invalidThresholds .. => .invalidThresholds
  | .invalidFilter .. => .invalidFilter
  | .emptyPipeline _ => .emptyPipeline
  | .missingIntegrationIds _ => .missingIntegrationIds
  | .refusedFilter _ => .refusedFilter

def detail : Error → String
  | .emptyPage => "page size must be at least 1"
  | .pageOutOfRange page size =>
    "page " ++ toString page ++ " of size " ++ toString size ++ " is out of range"
  | .noBuckets => "histogram bucket count must be at least 1"
  | .noTargetStage across => "across " ++ across.title ++ " requires a target stage name"
  | .noStackDimension => "across stack requires a stack dimension"
  | .limitOutOfRange side stage => side.name ++ " limit of stage " ++ stage ++ " is out of range"
  | .unknownEventKind text => text
  | .stageNotFound stage pipeline => "Pipeline " ++ pipeline ++ " does not contain stage " ++ stage
  | .issueVelocityWithoutIssues => "issue velocity requires an issue system"
  | .stageWithoutIssues stage kind =>
    "stage " ++ stage ++ " uses " ++ kind.name ++ " without an issue system"
  | .genericStartOfPullRequests => "a generic start event requires issue velocity"
  | .stackWithoutIssues => "stacking requires an issue system"
  | .stackValuesWithoutIssues => "stack values require an issue system"
  | .cdWithoutCi stage => "CD stage " ++ stage ++ " has no preceding CI stage"
  | .missingParam stage param => "Stage " ++ stage ++ " is missing required event parameter " ++ param
  | .invalidThresholds good needsAttention stage =>
    "good (" ++ toString good ++ "s) must be below needs_attention (" ++ toString needsAttention ++
      "s) for stage " ++ stage
  | .invalidFilter stage fault => "Invalid filter on stage " ++ stage ++ ": " ++ fault.message
  | .emptyPipeline pipeline => "Pipeline " ++ pipeline ++ " has no stages"
  | .missingIntegrationIds calculation =>
    "Integration ids are required to scope the " ++
      (match calculation with
        | .issueVelocity => "issue"
        | .prVelocity => "pull request") ++ " entity"
  | .refusedFilter reason => reason

def message (e : Error) : String :=
  match e.kind with
  | .configuration => "Invalid configuration: " ++ e.detail
  | .unknownEventKind => "Unknown event kind: " ++ e.detail
  | .unsupportedCombination => "Unsupported combination: " ++ e.detail
  | .invalidThresholds => "Invalid rating thresholds: " ++ e.detail
  | _ => e.detail

/-- The message and those of the causes beneath it. -/
def chain (e : Error) : List String :=
  match e with
  | .invalidFilter _ fault => [e.message, fault.message]
  | _ => [e.message]

end Error

inductive Warning where
  | ignoredSortKey (key pipeline : String)
  /-- Predicates on job runs of a pipeline that has none. -/
  | droppedRunPredicates (count : Nat)
  deriving DecidableEq, Repr

def Warning.message : Warning → String
  | .ignoredSortKey key pipeline => "Ignoring sort key " ++ key ++ ": no such stage in " ++ pipeline
  | .droppedRunPredicates count =>
    "Dropping " ++ toString count ++ " job-run filter predicates: pipeline has no job-run stage"

end LeadTime
