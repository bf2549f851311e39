import LeadTime.Join

/-! The lines of the joins that need no caller to supply them. -/
namespace LeadTime

open Sql

structure JoinContext where
  schema : String
  anchor : Anchor
  /-- Only rows of the latest ingestion count. -/
  freshness : Bool
  /-- Pull requests and issues are linked by their own mapping too. -/
  prIssueCorrelation : Bool

/-- The tables that map code to issues, and their issue column. -/
structure IssueMapping where
  commits : String
  pullRequests : String
  key : String

def IssueSystem.mapping : IssueSystem → IssueMapping
  | .workItems => ⟨"scm_commit_workitem_mappings", "scm_pullrequest_workitem_mappings", "workitem_id"⟩
  | _ => ⟨"scm_commit_issue_mappings", "scm_pullrequest_issue_mappings", "issue_key"⟩

namespace JoinContext

def table (ctx : JoinContext) (name : String) : Table := ⟨ctx.schema, name⟩

def latestIngestion (ctx : JoinContext) : TableJoin where
  side := .inner
  table := ctx.table "integration_tracker"
  as := "it"
  on := [.same "it" "integration_id" "im" "integration_id", .same "it" "latest_ingested_at" "im" "ingested_at"]

/-- Commits of an issue, or of a pull request. -/
def commitLines (ctx : JoinContext) : List JoinLine :=
  let system := ctx.anchor.issueSystem
  if ctx.anchor.isIssue then
    [.leftTable (ctx.table system.mapping.commits) "m"
        [.same "m" system.mapping.key "im" system.keyColumn,
          .same "m" "issue_integration_id" "im" "integration_id"],
      .leftTable (ctx.table "scm_commits") "c"
        [.same "c" "commit_sha" "m" "commit_sha", .same "c" "integration_id" "m" "scm_integration_id"]]
  else
    [.leftTable (ctx.table "scm_commit_pullrequest_mappings") "cprm"
        [.same "cprm" "scm_pullrequest_id" "pr" "id"],
      .leftTable (ctx.table "scm_commits") "c" [.same "c" "id" "cprm" "scm_commit_id"]]

/-- Pull requests of an issue's commits, or linked to the issue. -/
def pullRequestLines (ctx : JoinContext) : List JoinLine :=
  let system := ctx.anchor.issueSystem
  let byCommit := Expr.same "pr" "id" "cprm" "scm_pullrequest_id"
  let commits := JoinLine.leftTable (ctx.table "scm_commit_pullrequest_mappings") "cprm"
    [.same "cprm" "scm_commit_id" "c" "id"]
  if ctx.prIssueCorrelation then
    [.leftTable (ctx.table system.mapping.pullRequests) "prjm"
        [.same "prjm" system.mapping.key "im" system.keyColumn,
          .same "prjm" "issue_integration_id" "im" "integration_id"],
      commits,
      .leftTable (ctx.table "scm_pullrequests") "pr"
        [.anyOf [byCommit, .same "pr" "id" "prjm" "pr_uuid"]]]
  else [commits, .leftTable (ctx.table "scm_pullrequests") "pr" [byCommit]]

/-- Every issue, or every issue of the latest ingestion. -/
def issueSelect (ctx : JoinContext) : TableSelect where
  items := [.all (some "im")]
  table := ctx.table ctx.anchor.issueSystem.table
  as := some "im"
  joins := if ctx.freshness then [ctx.latestIngestion] else []
  conditions := []

/-- Issues of a pull request's commits, or linked to the pull request. -/
def issueLines (ctx : JoinContext) : List JoinLine :=
  let system := ctx.anchor.issueSystem
  let byCommit := Expr.same "im" system.keyColumn "m" system.mapping.key
  let commits := JoinLine.leftTable (ctx.table system.mapping.commits) "m"
    [.same "m" "commit_sha" "c" "commit_sha", .same "m" "scm_integration_id" "c" "integration_id"]
  if ctx.prIssueCorrelation then
    [.leftTable (ctx.table system.mapping.pullRequests) "prjm" [.same "prjm" "pr_uuid" "pr" "id"],
      commits,
      .join .left (.select ctx.issueSelect) "im"
        [.anyOf [byCommit, .same "im" system.keyColumn "prjm" system.mapping.key]]]
  else [commits, .join .left (.select ctx.issueSelect) "im" [byCommit]]

def statusLines (ctx : JoinContext) : List JoinLine :=
  match ctx.anchor.issueSystem with
  | .workItems =>
    [.leftTable (ctx.table "workitem_timeline") "ims"
      [.same "ims" "integration_id" "im" "integration_id", .same "ims" "workitem_id" "im" "workitem_id"]]
  | _ =>
    [.leftTable (ctx.table "issue_statuses") "ims"
      [.same "ims" "integration_id" "im" "integration_id", .same "ims" "issue_key" "im" "key"]]

def eventLink (ctx : JoinContext) (tableAlias : String) : List Expr :=
  let system := ctx.anchor.issueSystem
  [.equal (.column tableAlias "component") (.quoted system.component),
    .same tableAlias "key" "im" system.keyColumn, .same tableAlias "integration_id" "im" "integration_id"]

/-- The lines of a join; none where they are supplied. -/
def lines (ctx : JoinContext) : Join → List JoinLine
  | .commit => ctx.commitLines
  | .pullRequest => ctx.pullRequestLines
  | .issue => ctx.issueLines
  | .review => [.leftTable (ctx.table "scm_pullrequest_reviews") "prr" [.same "prr" "pr_id" "pr" "id"]]
  | .cicdMapping => [.leftTable (ctx.table "cicd_scm_mapping") "csm" [.same "csm" "commit_id" "c" "id"]]
  | .freshness =>
    [.join .inner (.table ctx.latestIngestion.table) ctx.latestIngestion.as ctx.latestIngestion.on]
  | .startEvent => [.leftTable (ctx.table "generic_events") "ge" (ctx.eventLink "ge")]
  | .statusHistory => ctx.statusLines
  | .sprint | .label _ | .jobRun _ | .genericEvent _ => []

end JoinContext
end LeadTime
