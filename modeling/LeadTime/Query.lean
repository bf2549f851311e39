import LeadTime.KeyMap

/-! What to compute over a pipeline. -/
namespace LeadTime

/-- The mode of the answer: statistics in three groupings, a listing, or counts of one stage. -/
inductive Across where
  | velocity
  | trend
  | stack
  | values
  | histogram
  | rating
  deriving DecidableEq, Repr

namespace Across

def all : List Across := [.velocity, .trend, .stack, .values, .histogram, .rating]

def name : Across → String
  | .velocity => "velocity"
  | .trend => "trend"
  | .stack => "stack"
  | .values => "values"
  | .histogram => "histogram"
  | .rating => "rating"

def title : Across → String
  | .velocity => "Velocity"
  | .trend => "Trend"
  | .stack => "Stack"
  | .values => "Values"
  | .histogram => "Histogram"
  | .rating => "Rating"

def isAggregate : Across → Bool
  | .velocity | .trend | .stack => true
  | _ => false

end Across

/-- Whose lead time is measured: an issue's or a pull request's. -/
inductive Calculation where
  | issueVelocity
  | prVelocity
  deriving DecidableEq, Repr

namespace Calculation

def all : List Calculation := [.issueVelocity, .prVelocity]

def name : Calculation → String
  | .issueVelocity => "issue_velocity"
  | .prVelocity => "pr_velocity"

end Calculation

inductive IssueSystem where
  | issueTracker
  | workItems
  | none
  deriving DecidableEq, Repr

namespace IssueSystem

def all : List IssueSystem := [.issueTracker, .workItems, .none]

def name : IssueSystem → String
  | .issueTracker => "issue_tracker"
  | .workItems => "work_items"
  | .none => "none"

def table : IssueSystem → String
  | .workItems => "workitems"
  | _ => "issues"

def keyColumn : IssueSystem → String
  | .workItems => "workitem_id"
  | _ => "key"

/-- The name under which generic events refer to issues. -/
def component : IssueSystem → String
  | .workItems => "work_item"
  | _ => "jira"

end IssueSystem

inductive StackKind where
  | issueType
  | issuePriority
  | issueComponent
  | issueProject
  | issueLabel
  | issueEpic
  deriving DecidableEq, Repr

namespace StackKind

def all : List StackKind :=
  [.issueType, .issuePriority, .issueComponent, .issueProject, .issueLabel, .issueEpic]

def name : StackKind → String
  | .issueType => "issue_type"
  | .issuePriority => "issue_priority"
  | .issueComponent => "issue_component"
  | .issueProject => "issue_project"
  | .issueLabel => "issue_label"
  | .issueEpic => "issue_epic"

def column (system : IssueSystem) : StackKind → String
  | .issueType => if system = .workItems then "workitem_type" else "issue_type"
  | .issuePriority => "priority"
  | .issueComponent => "components"
  | .issueProject => "project"
  | .issueLabel => "labels"
  | .issueEpic => "epic"

def isArray : StackKind → Bool
  | .issueComponent | .issueLabel => true
  | _ => false

end StackKind

inductive SortOrder where
  | asc
  | desc
  deriving DecidableEq, Repr

namespace SortOrder

def all : List SortOrder := [.asc, .desc]

def name : SortOrder → String
  | .asc => "asc"
  | .desc => "desc"

end SortOrder

inductive RatingBucket where
  | missing
  | good
  | needsAttention
  | slow
  deriving DecidableEq, Repr

namespace RatingBucket

def all : List RatingBucket := [.missing, .good, .needsAttention, .slow]

def name : RatingBucket → String
  | .missing => "missing"
  | .good => "good"
  | .needsAttention => "needs_attention"
  | .slow => "slow"

end RatingBucket

/-- The last second that is still good and the last that only needs attention. -/
structure Thresholds where
  good : Int64
  needsAttention : Int64
  deriving DecidableEq, Repr

structure Query where
  across : Across
  calculation : Calculation
  issueSystem : IssueSystem
  stack : Option StackKind
  stackValues : List String
  trendKeys : List Int64
  page : UInt64
  pageSize : Option UInt64
  sort : KeyMap SortOrder
  targetStage : Option String
  buckets : UInt32
  onlyApplicable : Bool
  ratings : List RatingBucket
  thresholds : Option Thresholds

namespace Query

/-- Velocity of issues in an issue tracker, ten buckets, nothing restricted. -/
def standard : Query where
  across := .velocity
  calculation := .issueVelocity
  issueSystem := .issueTracker
  stack := none
  stackValues := []
  trendKeys := []
  page := 0
  pageSize := none
  sort := .empty
  targetStage := none
  buckets := 10
  onlyApplicable := false
  ratings := []
  thresholds := none

/-- Whether only rows of the latest ingestion count: unless the answer is over time. -/
def needsFreshness (q : Query) : Bool := q.across ≠ .trend && q.trendKeys.isEmpty

end Query
end LeadTime
