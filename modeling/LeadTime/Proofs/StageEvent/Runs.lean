import LeadTime.Proofs.Registry.Runs
import LeadTime.Proofs.Sql.Text
import LeadTime.Proofs.StageEvent.Clause
import Mathlib

/-! What the predicates on job runs change of a stage's clause. The last stage of job runs takes them into the select of
its runs, after its own conditions; no other stage takes any, and nothing else of a clause depends on them. -/
namespace LeadTime

open Sql

def EventContext.unrestricted (ctx : EventContext) : EventContext := { ctx with runPredicates := [] }

def StageClause.restrict (last : Nat) (more : List Expr) (c : StageClause) : StageClause :=
  { c with demand := ⟨c.demand.requests.map (·.restrict last more), c.demand.bindings⟩ }

/-- The source of runs: a select of them, or for deployments a pair, of which the first are the deploying runs. -/
def Sql.Source.OfRuns (deploys : Bool) : Source → Prop
  | .table _ => False
  | .select s => deploys = false ∧ ∃ (runs : RunSelect) (schema : String), s = runs.select schema
  | .paired s => deploys = true ∧ ∃ (runs : DeploySelect) (schema : String), s = runs.select schema

def Sql.JoinLine.OfRuns (deploys : Bool) (stage : Nat) (line : JoinLine) : Prop :=
  ∃ source on, line = .join .left source ("run" ++ toString stage) on ∧ source.OfRuns deploys

/-- The line of the runs of a stage, as it is written with these terms. They come last in the select of the runs, which
for deployments is the first of two. -/
def runLine (deploys : Bool) (stage : Nat) (selected : String) (terms : List String) (built on : String) : String :=
  let runs := "SELECT jr.id, jr.end_time" ++ selected ++ whereText terms
  let source :=
    if deploys then
      "SELECT build_run.id, deploy_run.end_time FROM (" ++ runs ++ ") AS deploy_run INNER JOIN (" ++ built ++
        ") AS build_run ON deploy_run.value = build_run.id::text"
    else runs
  "LEFT JOIN (" ++ source ++ ") AS run" ++ toString stage ++ " ON " ++ on

theorem Sql.TableSelect.exists_text_of_runs (s : TableSelect) {more : List Projection}
    (h : s.items = RunSelect.items ++ more) : ∃ selected, ∀ conditions : List Expr,
      text { s with conditions }.tokens = "SELECT jr.id, jr.end_time" ++ selected ++ whereText (conditions.map Expr.text) := by
  obtain ⟨rest, hrest⟩ := ({ s with conditions := [] } : TableSelect).exists_tokens
  have hitems : ∃ further, text (selectList s.items) = "SELECT jr.id, jr.end_time" ++ further := by
    rw [h, text_selectList, List.map_append]
    cases more with
    | nil => exact ⟨"", rfl⟩
    | cons item items =>
      refine ⟨", " ++ ", ".intercalate ((item :: items).map Projection.text), ?_⟩
      have hruns : "SELECT jr.id, jr.end_time" = "SELECT " ++ ", ".intercalate (RunSelect.items.map Projection.text) := rfl
      rw [String.intercalate_append_of_ne_nil (by simp [RunSelect.items]) (by simp), hruns]
      simp only [String.append_assoc]
  obtain ⟨further, hfurther⟩ := hitems
  refine ⟨further ++ text (.fixed " FROM " :: rest), fun conditions => ?_⟩
  rw [text_tokens, hrest, text_append, hfurther]
  simp only [String.append_assoc]

theorem text_deploySelect (select : DeploySelect) (schema : String) : text (select.select schema).tokens =
    "SELECT build_run.id, deploy_run.end_time FROM (" ++ text (select.select schema).left.tokens ++
      ") AS deploy_run INNER JOIN (" ++ text (select.select schema).right.tokens ++
      ") AS build_run ON deploy_run.value = build_run.id::text" := by
  have hfrom : "SELECT build_run.id, deploy_run.end_time FROM (" = text (selectList (select.select schema).items) ++ " FROM (" := rfl
  have hjoin : ") AS deploy_run INNER JOIN (" = ") AS " ++ ("deploy_run" ++ " INNER JOIN (") := rfl
  have hon : ") AS build_run ON deploy_run.value = build_run.id::text" =
    ") AS " ++ ("build_run" ++ text (onAll (select.select schema).on)) := rfl
  rw [hfrom, hjoin, hon]
  simp only [PairedSelect.tokens, text_append, text_cons, text_nil, Token.text, String.append_assoc, String.append_empty]
  rfl

theorem Sql.JoinLine.text_runs {source : Source} (inner : List Token) (h : source.tokens = .fixed "(" :: inner ++ [.fixed ")"])
    (stage : Nat) (on : List Expr) : text (join .left source ("run" ++ toString stage) on).tokens =
      "LEFT JOIN (" ++ text inner ++ ") AS run" ++ toString stage ++ " ON " ++ " AND ".intercalate (on.map Expr.text) := by
  have hopen : "LEFT JOIN (" = "LEFT JOIN " ++ "(" := rfl
  have hclose : ") AS run" = ")" ++ (" AS " ++ "run") := rfl
  simp only [tokens, h, text_append, text_cons, text_nil, Token.text, text_onAll, Side.text, hopen, hclose,
    String.append_assoc, String.append_empty]

/-- Further conditions on the runs of a line are written after those of their select. -/
theorem Sql.JoinLine.OfRuns.exists_runLine {deploys : Bool} {stage : Nat} {line : JoinLine}
    (h : line.OfRuns deploys stage) : ∃ selected own built on, ∀ more : List Expr,
      text (line.restrict more).tokens = runLine deploys stage selected (own ++ more.map Expr.text) built on := by
  obtain ⟨source, on, rfl, hsource⟩ := h
  cases source with
  | table table => cases hsource
  | select s =>
    obtain ⟨rfl, runs, schema, rfl⟩ := hsource
    obtain ⟨selected, hselect⟩ := (runs.select schema).exists_text_of_runs rfl
    refine ⟨selected, runs.conditions.map Expr.text, "", " AND ".intercalate (on.map Expr.text), fun more => ?_⟩
    have hruns : text ((runs.select schema).restrict more).tokens = _ := hselect (runs.conditions ++ more)
    rw [restrict, Source.restrict, text_runs _ rfl, hruns, List.map_append]
    rfl
  | paired s =>
    obtain ⟨rfl, runs, schema, rfl⟩ := hsource
    obtain ⟨selected, hselect⟩ := (DeploySelect.side schema [.column "jrp" "value"] []).exists_text_of_runs rfl
    refine ⟨selected, runs.deploy.map Expr.text, text (DeploySelect.side schema [] runs.build).tokens,
      " AND ".intercalate (on.map Expr.text), fun more => ?_⟩
    let restricted : DeploySelect := { runs with deploy := runs.deploy ++ more }
    have hruns : text (restricted.select schema).left.tokens = _ := hselect (runs.deploy ++ more)
    rw [restrict, Source.restrict, text_runs (restricted.select schema).tokens rfl, text_deploySelect, hruns,
      List.map_append]
    rfl

namespace StageEvent

variable {ctx : EventContext} {name : String} {stage last : Nat} {event : StageEvent} {clause : StageClause}

theorem restrict_of_ne {more : List Expr} {c : StageClause} (h : ∀ req ∈ c.demand.requests, req.join ≠ .jobRun last) :
    c.restrict last more = c := by
  rw [StageClause.restrict, JoinRequest.map_restrict_of_ne h]

namespace Clause

theorem runPredicates_eq (h : ctx.runPredicates = [] ∨ ctx.lastJobRun = some last) (stage : Nat) :
    runPredicates ctx stage = ⟨if stage = last then ctx.runPredicates else [], []⟩ := by
  unfold runPredicates
  rcases h with h | h
  · simp [h]
  · simp [h, eq_comm (a := last)]

theorem runPredicates_unrestricted (stage : Nat) : runPredicates ctx.unrestricted stage = .none := by
  unfold runPredicates EventContext.unrestricted
  split <;> rfl

theorem restrict_ofRun (more : List Expr) (before : List JoinRequest) (source : Source) (link : String → Expr)
    (bindings : List (String × ParamValue)) (hb : ∀ req ∈ before, req.join ≠ .jobRun last) :
    (ofRun stage before source link bindings).restrict last more =
      ofRun stage before (if stage = last then source.restrict more else source) link bindings := by
  simp only [StageClause.restrict, ofRun, ofTime, List.map_append, JoinRequest.map_restrict_of_ne hb]
  by_cases h : stage = last <;> simp [JoinRequest.restrict, JoinLine.restrict, h]

theorem ofRuns_eq (h : ctx.runPredicates = [] ∨ ctx.lastJobRun = some last) (shape : RunShape) (runs : RunMatch)
    (filter : Terms) : ofRuns ctx stage shape runs filter =
      (ofRuns ctx.unrestricted stage shape runs filter).restrict last ctx.runPredicates := by
  simp only [ofRuns, ofMappedRun, runPredicates_eq h, runPredicates_unrestricted]
  rw [restrict_ofRun _ _ _ _ _ (by simp [JoinRequest.join])]
  split <;> simp [runSelect, RunSelect.select, Source.restrict, TableSelect.restrict, EventContext.unrestricted]

theorem ofCdRuns_eq (h : ctx.runPredicates = [] ∨ ctx.lastJobRun = some last) (ci : Nat) (runs : RunMatch)
    (filter : RunFilter) : ofCdRuns ctx stage ci runs filter =
      (ofCdRuns ctx.unrestricted stage ci runs filter).restrict last ctx.runPredicates := by
  simp only [ofCdRuns, runPredicates_eq h, runPredicates_unrestricted]
  rw [restrict_ofRun _ _ _ _ _ (by simp)]
  split <;> simp [runSelect, RunSelect.select, Source.restrict, TableSelect.restrict, EventContext.unrestricted]

theorem ofDeploy_eq (h : ctx.runPredicates = [] ∨ ctx.lastJobRun = some last) (runs : RunMatch) (marker : String)
    (buildJobIds : List String) : ofDeploy ctx stage runs marker buildJobIds =
      (ofDeploy ctx.unrestricted stage runs marker buildJobIds).restrict last ctx.runPredicates := by
  simp only [ofDeploy, ofMappedRun, runPredicates_eq h, runPredicates_unrestricted]
  rw [restrict_ofRun _ _ _ _ _ (by simp [JoinRequest.join])]
  split <;> simp [DeploySelect.select, DeploySelect.side, Source.restrict, TableSelect.restrict,
    EventContext.unrestricted]

end Clause

/-- A clause is the one without predicates, with these put into the runs of the last stage of job runs. -/
theorem clause_eq (h : ctx.runPredicates = [] ∨ ctx.lastJobRun = some last) (event : StageEvent) (name : String)
    (stage : Nat) : event.clause ctx name stage =
      (event.clause ctx.unrestricted name stage).map (·.restrict last ctx.runPredicates) := by
  cases event with
  | jobRun runs filter | thirdPartyCiJobRun runs | ciJobRun runs filter =>
    exact congrArg Except.ok (Clause.ofRuns_eq h _ _ _)
  | cdJobRun runs filter =>
    have hci : ctx.unrestricted.previousCi = ctx.previousCi := rfl
    simp only [clause, hci]
    cases ctx.previousCi with
    | none => rfl
    | some ci => exact congrArg Except.ok (Clause.ofCdRuns_eq h ci _ _)
  | deployJobRun runs marker buildJobIds => exact congrArg Except.ok (Clause.ofDeploy_eq h _ _ _)
  -- Without runs among its joins, a clause has no line that could take the predicates.
  | prCreated branches | prMerged branches =>
    refine congrArg Except.ok (restrict_of_ne fun req hr => ?_).symm
    rcases List.mem_cons.1 hr with rfl | hr
    · simp [JoinRequest.join]
    · split at hr
      · obtain ⟨c, -, rfl⟩ := List.mem_map.1 hr
        simp [JoinRequest.join]
      · simp at hr
  | _ =>
    refine congrArg Except.ok (restrict_of_ne fun req hr => ?_).symm
    simp only [Clause.ofStatus, Clause.ofTime, Clause.ofLabel, Clause.ofReview, Clause.ofGenericEvent, List.mem_cons,
      List.not_mem_nil, or_false] at hr
    rcases hr with rfl | rfl <;> simp [JoinRequest.join]

theorem ofRuns_of_mem (h : event.clause ctx name stage = .ok clause) {i : Nat} {line : JoinLine}
    (hm : .supplied (.jobRun i) line ∈ clause.demand.requests) :
    i = stage ∧ line.OfRuns (event.kind = .deployJobRun) stage := by
  obtain rfl : i = stage := ((spec_clause h).joins _ hm).2 i rfl
  refine ⟨rfl, ?_⟩
  cases event with
  | jobRun runs filter | thirdPartyCiJobRun runs | ciJobRun runs filter =>
    cases h
    simp only [Clause.ofRuns, Clause.ofMappedRun, Clause.ofRun, Clause.ofTime, List.mem_append, List.mem_singleton,
      reduceCtorEq, false_or, JoinRequest.supplied.injEq, true_and] at hm
    exact ⟨_, _, hm, rfl, _, _, rfl⟩
  | cdJobRun runs filter =>
    obtain ⟨ci, -, rfl⟩ := clause_cdJobRun_eq_ok.1 h
    simp only [Clause.ofCdRuns, Clause.ofRun, Clause.ofTime, List.nil_append, List.mem_singleton,
      JoinRequest.supplied.injEq, true_and] at hm
    exact ⟨_, _, hm, rfl, _, _, rfl⟩
  | deployJobRun runs marker buildJobIds =>
    cases h
    simp only [Clause.ofDeploy, Clause.ofMappedRun, Clause.ofRun, Clause.ofTime, List.mem_append, List.mem_singleton,
      reduceCtorEq, false_or, JoinRequest.supplied.injEq, true_and] at hm
    exact ⟨_, _, hm, rfl, _, _, rfl⟩
  | prCreated branches | prMerged branches =>
    cases h
    cases ha : ctx.joins.anchor.isIssue <;> simp [Clause.ofPullRequest, ha] at hm
  | _ =>
    cases h
    simp [Clause.ofStatus, Clause.ofTime, Clause.ofLabel, Clause.ofReview, Clause.ofGenericEvent] at hm

end StageEvent
end LeadTime
