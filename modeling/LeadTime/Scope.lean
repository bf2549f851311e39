import LeadTime.Binding
import LeadTime.Error
import LeadTime.Join.Registry
import LeadTime.Query
import LeadTime.Request
import LeadTime.Restriction

/-! The conditions on whole rows: the integrations they come from, the filters of their entities, and what the
query restricts. Each step is a clause of its own; `Draft.meetEach` takes them up to the first that fails,
and entities that were joined on the way are scoped last. -/
namespace LeadTime

open Sql

/-- Conditions on whole rows, and what they need. -/
structure ScopeClause where
  conditions : List Expr
  demand : Demand
  deriving DecidableEq

/-- Meets the demands of clauses up to the first that fails, and collects their conditions. -/
def Draft.meetEach (d : Draft) : List (Except Error ScopeClause) → Draft × Except Error (List Expr)
  | [] => (d, .ok [])
  | .error e :: _ => (d, .error e)
  | .ok clause :: rest =>
    let (d', conditions) := meetEach (d.meet clause.demand) rest
    (d', conditions.map (clause.conditions ++ ·))

structure Scope where
  schema : String
  anchor : Anchor
  rules : FilterRules
  filters : EntityFilters
  query : Query
  /-- The stage that alone takes the predicates on job runs. -/
  lastJobRun : Option Nat

namespace Scope

def nothing : ScopeClause := ⟨[], .none⟩

def whenSome {α : Type} (value : Option α) (clause : α → ScopeClause) : ScopeClause :=
  match value with
  | none => nothing
  | some a => clause a

/-- The name under which job runs are read inside the select of a stage. -/
def runAlias : String := "jr"

/-- The predicates on job runs, for the last stage of job runs. -/
def runTerms (s : Scope) : Except Error (Terms × List Warning) :=
  match s.filters.jobRuns with
  | none => .ok (.none, [])
  | some filter =>
    match s.rules.jobRuns filter runAlias s.filters.orgUnit with
    | .error reason => .error (.refusedFilter reason)
    | .ok r =>
      if r.isEmpty then .ok (.none, [])
      else if s.lastJobRun.isNone then .ok (.none, [.droppedRunPredicates r.predicates.size])
      else .ok (⟨r.predicates.values, r.bindings.entries⟩, [])

/-- The anchor comes from one of its integrations, of which there must be some. -/
def anchorClause (s : Scope) : Except Error ScopeClause :=
  let ids := if s.anchor.isIssue then s.filters.issueIds else s.filters.codeIds
  let placeholder :=
    if s.anchor.isIssue then Placeholder.issueIntegrationIds else Placeholder.codeIntegrationIds
  if ids.isEmpty then .error (.missingIntegrationIds s.anchor.calculation)
  else
    .ok ⟨[(Expr.column s.anchor.tableAlias "integration_id").among placeholder],
      ⟨[], [(placeholder, .textList ids)]⟩⟩

/-- The predicates of an entity. Where the entity is only joined and its users are scoped, rows without it
pass. -/
def entityClause (s : Scope) (j : Join) (unitCounts : Bool) (restriction : Except String Restriction) :
    Except Error ScopeClause :=
  match restriction with
  | .error reason => .error (.refusedFilter reason)
  | .ok r =>
    if r.isEmpty then .ok nothing
    else
      let orMissing (predicate : Expr) : Expr := .anyOf [.isNull (.column j.tableAlias "id"), predicate]
      .ok
        { conditions :=
            if unitCounts && j ≠ s.anchor.join then r.predicates.values.map orMissing
            else r.predicates.values
          demand := ⟨[.held j], r.bindings.entries⟩ }

/-- The filter of issues, where there is anything to read them from. -/
def issues (s : Scope) : Option IssueFilter := if s.anchor.hasIssues then s.filters.issues else none

def entityClauses (s : Scope) : List (Except Error ScopeClause) :=
  let unit := s.filters.orgUnit
  let issueClause := s.issues.toList.map fun f =>
    s.entityClause .issue f.orgUnitScoped (s.rules.issues f Join.issue.tableAlias unit)
  let pullRequestClause := s.filters.pullRequests.toList.map fun f =>
    s.entityClause .pullRequest f.orgUnitScoped (s.rules.pullRequests f Join.pullRequest.tableAlias unit)
  let commitClause := s.filters.commits.toList.map fun f =>
    s.entityClause .commit f.orgUnitScoped (s.rules.commits f Join.commit.tableAlias unit)
  issueClause ++ pullRequestClause ++ commitClause

def activeClause (value : Bool) : ScopeClause :=
  let column := Expr.column "im" "is_active"
  { conditions := [.anyOf [.equal column (.placeholder Placeholder.isActive), .isNull column]]
    demand := ⟨[.held .issue], [(Placeholder.isActive, .bool value)]⟩ }

def sprintSelect (s : Scope) : TableSelect :=
  let byState (state integration : Expr) : List Expr :=
    state.among Placeholder.sprintStates ::
      if s.filters.issueIds.isEmpty then [] else [integration.among Placeholder.issueIntegrationIds]
  match s.anchor.issueSystem with
  | .workItems =>
    { items := [.column "wt" "workitem_id", .column "wt" "integration_id"]
      table := ⟨s.schema, "workitem_timeline"⟩
      as := some "wt"
      joins :=
        [⟨.inner, ⟨s.schema, "workitem_milestones"⟩, "ms",
          [.equal (.cast (.column "ms" "id") "text") (.column "wt" "field_value"),
            .equal (.column "wt" "field_type") (.quoted "sprint")]⟩]
      conditions := byState (.column "ms" "state") (.column "wt" "integration_id") }
  | _ =>
    { items := [.name "sprint_id"]
      table := ⟨s.schema, "issue_sprints"⟩
      as := none
      joins := []
      conditions := byState (.name "state") (.name "integration_id") }

def sprintLine (s : Scope) : JoinLine :=
  let tableAlias := Join.sprint.tableAlias
  let link :=
    match s.anchor.issueSystem with
    | .workItems =>
      [.same tableAlias "workitem_id" "im" "workitem_id", .same tableAlias "integration_id" "im" "integration_id"]
    | _ => [.equal (.column tableAlias "sprint_id") (.call "ANY" (.column "im" "sprint_ids"))]
  .join .inner (.select s.sprintSelect) tableAlias link

def sprintClause (s : Scope) (states : List String) : ScopeClause :=
  if states.isEmpty then nothing
  else ⟨[], ⟨[.supplied .sprint s.sprintLine], [(Placeholder.sprintStates, .textList states)]⟩⟩

/-- The issue has one of the given values in the stacked dimension. -/
def stackClause (s : Scope) : Except Error ScopeClause :=
  match s.query.stack with
  | none => .ok nothing
  | some stack =>
    if s.query.stackValues.isEmpty then .ok nothing
    else if !s.anchor.hasIssues then .error .stackValuesWithoutIssues
    else
      let column := Expr.column "im" (stack.column s.anchor.issueSystem)
      .ok
        { conditions :=
            [if stack.isArray then .binary .overlaps column (.placeholder Placeholder.stackValues)
              else column.among Placeholder.stackValues]
          demand := ⟨[.held .issue], [(Placeholder.stackValues, .textList s.query.stackValues)]⟩ }

def trendClause (s : Scope) : ScopeClause :=
  if s.query.trendKeys.isEmpty then nothing
  else
    ⟨[s.anchor.trend.among Placeholder.trendKeys],
      ⟨[], [(Placeholder.trendKeys, .intList s.query.trendKeys)]⟩⟩

def endBound (stage : Nat) (operator : Operator) (placeholder : String) (instant : Instant) : ScopeClause :=
  ⟨[.binary operator (.column (Join.jobRun stage).tableAlias "end_time")
      (.call "to_timestamp" (.placeholder placeholder))],
    ⟨[], [(placeholder, .int (Int64.ofInt instant.seconds))]⟩⟩

def endTimeClauses (s : Scope) : List ScopeClause :=
  match s.lastJobRun, s.filters.jobRuns.bind (·.endTime) with
  | some stage, some range =>
    [whenSome range.start (endBound stage .greater (Placeholder.endTimeStart stage)),
      whenSome range.stop (endBound stage .less (Placeholder.endTimeStop stage))]
  | _, _ => []

/-- The clauses that do not depend on what has been joined, in their order. -/
def clauses (s : Scope) : List (Except Error ScopeClause) :=
  s.anchorClause :: s.entityClauses ++
    [.ok (whenSome (s.issues.bind (·.isActive)) activeClause),
      .ok (whenSome s.issues fun f => s.sprintClause f.sprintStates), s.stackClause, .ok s.trendClause] ++
    s.endTimeClauses.map .ok

/-- The entities that rows need not have, with the integrations that each may come from. -/
def optionalEntities (s : Scope) : List (Join × String × List String) :=
  [(.issue, Placeholder.issueIntegrationIds, s.filters.issueIds),
    (.pullRequest, Placeholder.codeIntegrationIds, s.filters.codeIds),
    (.commit, Placeholder.codeIntegrationIds, s.filters.codeIds)]

/-- The joined entity is missing or comes from one of its integrations. -/
def optionalCondition (j : Join) (placeholder : String) : Expr :=
  let column := Expr.column j.tableAlias "integration_id"
  .anyOf [.group (column.among placeholder), .group (.isNull column)]

/-- Scopes an entity that is joined; a list of integrations that is bound already stays as it is. -/
def scopeEntity (d : Draft) (entity : Join × String × List String) : Draft × List Expr :=
  let (j, placeholder, ids) := entity
  if d.joins.isAnchor j || !d.joins.isJoined j || ids.isEmpty then (d, [])
  else
    ({ d with bindings := d.bindings.insertNew placeholder (.textList ids) },
      [optionalCondition j placeholder])

def scopeEntities (d : Draft) : List (Join × String × List String) → Draft × List Expr
  | [] => (d, [])
  | entity :: rest =>
    let (d, conditions) := scopeEntity d entity
    let (d, more) := scopeEntities d rest
    (d, conditions ++ more)

/-- All conditions on whole rows. After a failure the draft is the one that was reached. -/
def compose (s : Scope) (d : Draft) : Draft × Except Error (List Expr) :=
  match d.meetEach s.clauses with
  | (d, .error e) => (d, .error e)
  | (d, .ok conditions) =>
    let (d, more) := scopeEntities d s.optionalEntities
    (d, .ok (conditions ++ more))

end Scope
end LeadTime
