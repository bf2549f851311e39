import LeadTime.JobRun.Condition
import LeadTime.JobRun.Select
import LeadTime.Join.Registry
import LeadTime.StageEvent

/-! What a stage contributes to the query: the time it ended, the joins that time is read from, the values
that its event binds, and conditions on whole rows. -/
namespace LeadTime

open Sql

/-- What a stage's contribution depends on besides the stage. -/
structure EventContext where
  joins : JoinContext
  /-- The stage that alone takes the predicates on job runs. -/
  lastJobRun : Option Nat
  runPredicates : List Expr
  previousCi : Option Nat

structure StageClause where
  timestamp : Expr
  aggregate : Aggregate
  /-- Conditions on whole rows. -/
  predicates : List Expr
  demand : Demand
  deriving DecidableEq

def BranchFilter.terms (f : BranchFilter) (stage : Nat) : Terms :=
  let source := Expr.column "pr" "source_branch"
  let target := Expr.column "pr" "target_branch"
  let isIn (column : Expr) (values : List String) : List ((String → Expr) × ParamValue) :=
    if values.isEmpty then [] else [(column.among, .textList values)]
  let isLike (column : Expr) (pattern : Option String) : List ((String → Expr) × ParamValue) :=
    pattern.toList.map fun p => (fun name => .binary .matchesPattern column (.placeholder name), .text p)
  let restrictions := isIn source f.source ++ isIn target f.target ++ isLike source f.sourcePattern ++
    isLike target f.targetPattern
  let numbered := restrictions.zipIdx.map fun (restriction, i) =>
    (Placeholder.indexedValue stage i, restriction)
  ⟨numbered.map fun (name, restriction) => restriction.1 name,
    numbered.map fun (name, restriction) => (name, restriction.2)⟩

/-- The run belongs to one of the jobs and had one of the parameters; pairs are numbered from `first`. -/
def RunMatch.terms (r : RunMatch) (stage first : Nat) : Terms :=
  let jobs : Terms :=
    if r.jobIds.isEmpty then .none
    else
      ⟨[.among (.column "jr" "cicd_job_id") (Placeholder.value stage)],
        [(Placeholder.value stage, .textList r.jobIds)]⟩
  let pairs := r.params.zipIdx.map fun (pair, i) =>
    let name := Placeholder.name stage (first + i)
    let values := Placeholder.indexedValue stage (first + i)
    (⟨[.group (.binary .and (.equal (.column "jrp" "name") (.placeholder name))
          (.among (.column "jrp" "value") values))],
      [(name, .text pair.1), (values, .textList pair.2)]⟩ : Terms)
  jobs ++ .anyOf pairs

namespace StageEvent

def reviewStartedStates : List String := ["COMMENTED", "CHANGES_REQUESTED"]

def approvedStates : List String := ["APPROVED", "merged", "approved", "approved with suggestions"]

namespace Clause

def ofTime (timestamp : Expr) (requests : List JoinRequest) (bindings : List (String × ParamValue)) :
    StageClause :=
  ⟨timestamp, .min, [], ⟨requests, bindings⟩⟩

def ofStatus (ctx : EventContext) (stage : Nat) (statuses : List String) : StageClause :=
  let ims := Expr.column "ims"
  let value := Placeholder.value stage
  let time : Expr :=
    match ctx.joins.anchor.issueSystem with
    | .workItems =>
      .whenever
        (.group (.binary .and (.equal (ims "field_type") (.quoted "status")) (.among (ims "field_value") value)))
        (.choice (.arm (.isNotNull (ims "start_date")) (.apply "COALESCE" [ims "end_date", .now])
          (.otherwise (ims "end_date"))))
    | _ => .whenever (.group (.among (ims "status") value)) (.call "to_timestamp" (ims "end_time"))
  ofTime time [.held .statusHistory] [(value, .textList statuses)]

/-- A pull request's own time. Restrictions of its branches go to its join, or to whole rows where it is
the anchor. -/
def ofPullRequest (ctx : EventContext) (stage : Nat) (column : String) (aggregate : Aggregate)
    (branches : BranchFilter) : StageClause :=
  let terms := branches.terms stage
  let onJoin := ctx.joins.anchor.isIssue
  { timestamp := .column "pr" column
    aggregate := aggregate
    predicates := if onJoin then [] else terms.conditions
    demand :=
      { requests := .held .pullRequest ::
          if onJoin then terms.conditions.map (.condition .pullRequest) else []
        bindings := terms.bindings } }

def ofLabel (ctx : EventContext) (stage : Nat) (labels : Option (List String)) : StageClause :=
  let tableAlias := (Join.label stage).tableAlias
  let value := Placeholder.value stage
  let line := JoinLine.leftTable (ctx.joins.table "scm_pullrequest_labels") tableAlias
    (.same tableAlias "scm_pullrequest_id" "pr" "id" ::
      if labels.isSome then [.among (.column tableAlias "name") value] else [])
  ofTime (.column tableAlias "label_added_at") [.held .pullRequest, .supplied (.label stage) line]
    (labels.toList.map fun ls => (value, .textList ls))

def ofReview (states : List String) (aggregate : Aggregate) : StageClause :=
  { ofTime (.whenever (.group (.amongTexts (.column "prr" "state") states)) (.column "prr" "reviewed_at"))
      [.held .review] [] with aggregate := aggregate }

def runPredicates (ctx : EventContext) (stage : Nat) : Terms :=
  ⟨if ctx.lastJobRun = some stage then ctx.runPredicates else [], []⟩

/-- The end of a run out of a select, which is joined by what `link` says of its name. -/
def ofRun (stage : Nat) (before : List JoinRequest) (source : Source) (link : String → Expr)
    (bindings : List (String × ParamValue)) : StageClause :=
  let tableAlias := (Join.jobRun stage).tableAlias
  ofTime (.column tableAlias "end_time")
    (before ++ [.supplied (.jobRun stage) (.join .left source tableAlias [link tableAlias])]) bindings

def ofMappedRun (stage : Nat) (source : Source) (bindings : List (String × ParamValue)) : StageClause :=
  ofRun stage [.held .cicdMapping] source (fun run => .same run "id" "csm" "cicd_job_run_id") bindings

def runSelect (ctx : EventContext) (shape : RunShape) (runs : RunMatch) (terms : Terms) : Source :=
  .select ((RunSelect.mk shape (!runs.params.isEmpty) terms.conditions).select ctx.joins.schema)

def ofRuns (ctx : EventContext) (stage : Nat) (shape : RunShape) (runs : RunMatch) (filter : Terms) :
    StageClause :=
  let terms := runs.terms stage 0 ++ filter ++ runPredicates ctx stage
  ofMappedRun stage (runSelect ctx shape runs terms) terms.bindings

/-- The end of a run that deployed what the last CI stage before it built. -/
def ofCdRuns (ctx : EventContext) (stage ci : Nat) (runs : RunMatch) (filter : RunFilter) : StageClause :=
  let terms := runs.terms stage 0 ++ filter.terms stage (some .cd) ++ runPredicates ctx stage
  ofRun stage [] (runSelect ctx .platformCd runs terms)
    (fun run => .same run "ci_job_run_id" (Join.jobRun ci).tableAlias "id") terms.bindings

/-- The end of a deploying run, found through the build that its marker names. -/
def ofDeploy (ctx : EventContext) (stage : Nat) (runs : RunMatch) (marker : String)
    (buildJobIds : List String) : StageClause :=
  let name := Placeholder.name stage 0
  let builds := Placeholder.indexedValue stage 0
  let deploy := runs.terms stage 1 ++
    ⟨[.equal (.column "jrp" "name") (.placeholder name)], [(name, .text marker)]⟩ ++
    runPredicates ctx stage
  let build : Terms :=
    if buildJobIds.isEmpty then .none
    else ⟨[.among (.column "jr" "cicd_job_id") builds], [(builds, .textList buildJobIds)]⟩
  ofMappedRun stage (.paired ((DeploySelect.mk deploy.conditions build.conditions).select ctx.joins.schema))
    (deploy.bindings ++ build.bindings)

def ofGenericEvent (ctx : EventContext) (stage : Nat) (types : List String) : StageClause :=
  let tableAlias := (Join.genericEvent stage).tableAlias
  let value := Placeholder.value stage
  let line := JoinLine.leftTable (ctx.joins.table "generic_events") tableAlias
    (ctx.joins.eventLink tableAlias ++
      if types.isEmpty then [] else [.among (.column tableAlias "event_type") value])
  ofTime (.column tableAlias "event_time") [.held .issue, .supplied (.genericEvent stage) line]
    (if types.isEmpty then [] else [(value, .textList types)])

end Clause

open Clause in
/-- The contribution of the stage at this index. A CD stage needs a CI stage before it. -/
def clause (ctx : EventContext) (name : String) (stage : Nat) : StageEvent → Except Error StageClause
  | .statusReached statuses => .ok (ofStatus ctx stage statuses)
  | .commitCreated => .ok (ofTime (.column "c" "committed_at") [.held .commit] [])
  | .prCreated branches => .ok (ofPullRequest ctx stage "pr_created_at" .min branches)
  | .prLabelAdded labels => .ok (ofLabel ctx stage labels)
  | .prReviewStarted => .ok (ofReview reviewStartedStates .min)
  | .prApproved aggregate => .ok (ofReview approvedStates aggregate)
  | .prMerged branches => .ok (ofPullRequest ctx stage "pr_merged_at" .max branches)
  | .jobRun runs filter => .ok (ofRuns ctx stage .generic runs (filter.terms stage none))
  | .thirdPartyCiJobRun runs => .ok (ofRuns ctx stage .generic runs .none)
  | .ciJobRun runs filter => .ok (ofRuns ctx stage .platform runs (filter.terms stage (some .ci)))
  | .cdJobRun runs filter =>
    match ctx.previousCi with
    | none => .error (.cdWithoutCi name)
    | some ci => .ok (ofCdRuns ctx stage ci runs filter)
  | .deployJobRun runs marker buildJobIds => .ok (ofDeploy ctx stage runs marker buildJobIds)
  | .genericEvent types => .ok (ofGenericEvent ctx stage types)

theorem clause_cdJobRun_eq_ok {ctx : EventContext} {name : String} {stage : Nat} {runs : RunMatch} {filter : RunFilter}
    {c : StageClause} : clause ctx name stage (.cdJobRun runs filter) = .ok c ↔
      ∃ ci, ctx.previousCi = some ci ∧ c = Clause.ofCdRuns ctx stage ci runs filter := by
  cases h : ctx.previousCi <;> simp [clause, h, eq_comm]

def nextCi (previous : Option Nat) (stage : Nat) (e : StageEvent) : Option Nat :=
  if e.kind.isCi then some stage else previous

end StageEvent
end LeadTime
