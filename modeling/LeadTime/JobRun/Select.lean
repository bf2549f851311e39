import LeadTime.Sql.Select

/-! The selects of job runs that a stage is joined to: one row a run, with its end. -/
namespace LeadTime

open Sql

inductive RunShape where
  /-- Runs through their job and its instance. -/
  | generic
  /-- Runs alone, for CI on the platform itself. -/
  | platform
  /-- Runs with the CI run that made what they deploy. -/
  | platformCd
  deriving DecidableEq, Repr

structure RunSelect where
  shape : RunShape
  withParams : Bool
  conditions : List Expr
  deriving DecidableEq, Repr

namespace RunSelect

def runs (schema : String) : Table := ⟨schema, "cicd_job_runs"⟩

def params (schema : String) : TableJoin :=
  ⟨.plain, ⟨schema, "cicd_job_run_params"⟩, "jrp", [.same "jrp" "cicd_job_run_id" "jr" "id"]⟩

def jobs (schema : String) : List TableJoin :=
  [⟨.plain, ⟨schema, "cicd_jobs"⟩, "j", [.same "j" "id" "jr" "cicd_job_id"]⟩,
    ⟨.plain, ⟨schema, "cicd_instances"⟩, "i", [.same "i" "id" "j" "cicd_instance_id"]⟩]

def artifacts (schema : String) : TableJoin :=
  ⟨.plain, ⟨schema, "cicd_job_run_artifact_mappings"⟩, "jram", [.same "jram" "cicd_job_run_id2" "jr" "id"]⟩

def items : List Projection := [.column "jr" "id", .column "jr" "end_time"]

def select (s : RunSelect) (schema : String) : TableSelect where
  items := items ++
    if s.shape = .platformCd then [.named (.column "jram" "cicd_job_run_id1") "ci_job_run_id"] else []
  table := runs schema
  as := some "jr"
  joins := (if s.shape = .generic then jobs schema else []) ++
    (if s.withParams then [params schema] else []) ++
    if s.shape = .platformCd then [artifacts schema] else []
  conditions := s.conditions

end RunSelect

/-- Deploying runs with the building run that their marker names. -/
structure DeploySelect where
  deploy : List Expr
  build : List Expr
  deriving DecidableEq, Repr

namespace DeploySelect

def side (schema : String) (items : List Projection) (conditions : List Expr) : TableSelect :=
  ⟨RunSelect.items ++ items, RunSelect.runs schema, some "jr", [RunSelect.params schema], conditions⟩

def select (s : DeploySelect) (schema : String) : PairedSelect where
  items := [.column "build_run" "id", .column "deploy_run" "end_time"]
  left := side schema [.column "jrp" "value"] s.deploy
  leftAs := "deploy_run"
  right := side schema [] s.build
  rightAs := "build_run"
  on := [.equal (.column "deploy_run" "value") (.cast (.column "build_run" "id") "text")]

end DeploySelect
end LeadTime
