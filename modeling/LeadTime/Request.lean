import LeadTime.Instant
import LeadTime.KeyMap
import LeadTime.Query
import LeadTime.Stage

/-! A request: the pipeline, the question, and the filters of the entities behind the pipeline. A criterion of a filter is
a field and the values it may take. -/
namespace LeadTime

/-- The users whose work counts. -/
structure OrgUnit where
  refId : Option Int64
  userIds : List String
  deriving DecidableEq

def OrgUnit.everyone : OrgUnit := ⟨none, []⟩

structure IssueFilter where
  integrationIds : List String
  sprintStates : List String
  isActive : Option Bool
  orgUnitScoped : Bool
  criteria : KeyMap (List String)

/-- A filter of what a code host keeps: pull requests or commits. -/
structure CodeFilter where
  integrationIds : List String
  orgUnitScoped : Bool
  criteria : KeyMap (List String)

structure TimeRange where
  start : Option Instant
  stop : Option Instant
  deriving DecidableEq

structure JobRunFilter where
  endTime : Option TimeRange
  orgUnitScoped : Bool
  criteria : KeyMap (List String)

structure EntityFilters where
  issues : Option IssueFilter
  pullRequests : Option CodeFilter
  commits : Option CodeFilter
  jobRuns : Option JobRunFilter
  orgUnit : OrgUnit

namespace EntityFilters

def unrestricted : EntityFilters := ⟨none, none, none, none, .everyone⟩

def issueIds (f : EntityFilters) : List String := (f.issues.map (·.integrationIds)).getD []

/-- The integrations that code may come from: the pull requests' own, else the commits'. -/
def codeIds (f : EntityFilters) : List String :=
  match f.pullRequests with
  | some p => if p.integrationIds.isEmpty then commitIds f else p.integrationIds
  | none => commitIds f
where
  commitIds (f : EntityFilters) : List String := (f.commits.map (·.integrationIds)).getD []

end EntityFilters

structure Request where
  pipeline : PipelineConfig
  query : Query
  filters : EntityFilters

end LeadTime
