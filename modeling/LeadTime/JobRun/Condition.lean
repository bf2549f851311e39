import LeadTime.Binding
import LeadTime.Document.Json.Writer
import LeadTime.JobRun.Filter

/-! The conditions that a stage's filter puts on job runs, and the mark of the platform that ran them. -/
namespace LeadTime

inductive PlatformFlag where
  | ci
  | cd
  deriving DecidableEq, Repr

def PlatformFlag.column : PlatformFlag → String
  | .ci => "ci"
  | .cd => "cd"

namespace RunFilter

open Sql

def singleton (s : String) : String := Json.compact (.list [.text s])

def beginsPattern (s : String) : String := s ++ "%"

def containsPattern (s : String) : String := "%" ++ s ++ "%"

/-- A restriction of a column to the given values, none when no value is given. -/
def inList (column : String) (placeholder : String) (values : List String) : Terms :=
  if values.isEmpty then .none
  else ⟨[.among (.column "jr" column) placeholder], [(placeholder, .textList values)]⟩

def notInList (column : String) (placeholder : String) (values : List String) : Terms :=
  if values.isEmpty then .none
  else ⟨[.notAmong (.column "jr" column) placeholder], [(placeholder, .textList values)]⟩

def containment (stage index : Nat) (field : String) (values : List String) : Terms :=
  .anyOf <| values.zipIdx.map fun (value, i) =>
    let p := Placeholder.metadataValue stage index i
    ⟨[.binary .includes (.binary .member (.column "jr" "metadata") (.quoted field))
        (.cast (.placeholder p) "jsonb")],
      [(p, .text (singleton value))]⟩

/-- The place of branches after the fields that are matched by containment. -/
def branchField : Nat := 3

/-- The run is on one of the branches, or aims at it. -/
def branchTerms (stage : Nat) (branches : List String) : Terms :=
  .anyOf <| (branches.take 2).zipIdx.map fun (branch, i) =>
    let p := Placeholder.metadataValue stage branchField i
    let p' := Placeholder.metadataOther stage branchField i
    let member (field : String) := Expr.binary .memberText (.column "jr" "metadata") (.quoted field)
    ⟨[.anyOf [.equal (member "branch") (.placeholder p), .equal (member "target_branch") (.placeholder p')]],
      [(p, .text branch), (p', .text branch)]⟩

def addressLike (placeholder pattern : String) : Terms :=
  ⟨[.binary .like (.binary .memberText (.column "jr" "metadata") (.quoted "repo_url"))
      (.placeholder placeholder)],
    [(placeholder, .text pattern)]⟩

def repositoryTerms (stage : Nat) : Option TextPattern → Terms
  | none => .none
  | some p =>
    (match p.begins with
      | none => .none
      | some s => addressLike (Placeholder.metadataPattern stage "repo_url" "begins") (beginsPattern s)) ++
    (match p.contains with
      | none => .none
      | some s =>
        addressLike (Placeholder.metadataPattern stage "repo_url" "contains") (containsPattern s))

def flagTerms (stage : Nat) : Option PlatformFlag → Terms
  | none => .none
  | some flag =>
    let p := Placeholder.field stage ("is_" ++ flag.column)
    ⟨[.equal (.column "jr" flag.column) (.placeholder p)], [(p, .bool true)]⟩

def terms (f : RunFilter) (stage : Nat) (flag : Option PlatformFlag) : Terms :=
  .all
    [inList "cicd_user_id" (Placeholder.field stage "cicd_user_ids") f.userIds,
      notInList "cicd_user_id" (Placeholder.excluded stage "cicd_user_ids") f.excludedUserIds,
      inList "status" (Placeholder.field stage "job_statuses") f.statuses,
      notInList "status" (Placeholder.excluded stage "job_statuses") f.excludedStatuses,
      containment stage 0 "services" f.services,
      containment stage 1 "environments" f.environments,
      containment stage 2 "deployment_types" f.deploymentTypes,
      branchTerms stage f.branches,
      repositoryTerms stage f.repository,
      flagTerms stage flag]

end RunFilter
end LeadTime
