import LeadTime.Query
import LeadTime.Sql.Select

/-! The entity whose lead time is measured: the rows of the answer, one for each. -/
namespace LeadTime

open Sql

structure Anchor where
  calculation : Calculation
  issueSystem : IssueSystem
  deriving DecidableEq, Repr

namespace Anchor

def isIssue (a : Anchor) : Bool := a.calculation = .issueVelocity

def hasIssues (a : Anchor) : Bool := a.issueSystem ≠ .none

def tableAlias (a : Anchor) : String := if a.isIssue then "im" else "pr"

def source (a : Anchor) (schema : String) : From :=
  .table ⟨schema, if a.isIssue then a.issueSystem.table else "scm_pullrequests"⟩ a.tableAlias

/-- What identifies one anchor, each under its name. -/
def identity (a : Anchor) : List (Expr × String) :=
  let im := Expr.column "im"
  let pr := Expr.column "pr"
  match a.calculation, a.issueSystem with
  | .issueVelocity, .workItems =>
    [(im "id", "u_id"), (im "integration_id", "integration_id"), (im "workitem_id", "key"),
      (im "summary", "title"), (.binary .attribute (im "attributes") (.quoted "organization"), "org"),
      (im "project", "project"), (.null, "repo_id")]
  | .issueVelocity, _ =>
    [(im "id", "u_id"), (im "integration_id", "integration_id"), (im "key", "key"),
      (im "summary", "title"), (.null, "org"), (.null, "project"), (.null, "repo_id")]
  | .prVelocity, _ =>
    [(pr "id", "u_id"), (pr "integration_id", "integration_id"), (pr "number", "key"),
      (pr "title", "title"), (.null, "org"), (pr "project", "project"), (pr "repo_id", "repo_id"),
      (.binary .attribute (pr "metadata") (.quoted "pr_link"), "pr_link")]

def identityColumns (a : Anchor) : List String := a.identity.map Prod.snd

def createdAt (a : Anchor) : Expr :=
  match a.calculation, a.issueSystem with
  | .prVelocity, _ => .column "pr" "pr_created_at"
  | .issueVelocity, .workItems => .column "im" "workitem_created_at"
  | .issueVelocity, _ => .call "to_timestamp" (.column "im" "issue_created_at")

/-- The period that a trend counts the anchor in. -/
def trend (a : Anchor) : Expr :=
  if a.isIssue then .column "im" "ingested_at"
  else .epoch (.cast (.column "pr" "pr_created_at") "date")

end Anchor
end LeadTime
