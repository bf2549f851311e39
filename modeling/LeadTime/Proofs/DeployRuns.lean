import LeadTime.Proofs.Except
import LeadTime.Proofs.Sql.Matching
import LeadTime.Proofs.StageEvent.Carried
import Mathlib

/-! Which runs a stage of deployments finds. The name of a deployment's marker and its other parameters are asked of one
and the same parameter of a run; so no run is found where other parameters are asked for, unless one of them has the
marker's name itself. -/
namespace LeadTime

open Sql

def StageName.AreBound (stage : ℕ) (carried : List (StageName × ParamValue)) (bound : Bindings) : Prop :=
  ∀ n value, (n, value) ∈ carried → bound.get? (n.text stage) = some value

theorem Terms.mem_conditions_anyOf_single {α : Type} {e : Expr} (items : List α) (f : α → Expr)
    (g : α → List (String × ParamValue)) :
    e ∈ (Terms.anyOf (items.map fun a => ⟨[f a], g a⟩)).conditions ↔ items ≠ [] ∧ e = .anyOf (items.map f) := by
  have hall (items : List α) : (Terms.all (items.map fun a => ⟨[f a], g a⟩)).conditions = items.map f := by
    induction items with
    | nil => rfl
    | cons a rest ih => rw [List.map_cons, Terms.all, Terms.conditions_append, ih, List.map_cons, List.singleton_append]
  cases items with
  | nil => simp [Terms.anyOf]
  | cons a rest =>
    rw [← hall]
    simp [Terms.anyOf]

namespace RunMatch

/-- A run with one of its parameters is such as an event asks for: it belongs to one of the jobs, and the parameter is one
of those that are named, where any are. -/
structure Fits (r : RunMatch) (cells : Cells) : Prop where
  job : r.jobIds ≠ [] → ∃ id ∈ r.jobIds, cells "jr" "cicd_job_id" = some id
  param : r.params ≠ [] →
    ∃ name values, (name, values) ∈ r.params ∧ cells "jrp" "name" = some name ∧ ∃ v ∈ values, cells "jrp" "value" = some v

variable {r : RunMatch} {first stage : ℕ} {bound : Bindings} {cells : Cells}

def jobTerm (stage : ℕ) : Expr := .among (.column "jr" "cicd_job_id") (Placeholder.value stage)

def paramTerm (stage i : ℕ) : Expr :=
  .group (.binary .and (.equal (.column "jrp" "name") (.placeholder (Placeholder.name stage i)))
    (.among (.column "jrp" "value") (Placeholder.indexedValue stage i)))

theorem isTerm_jobTerm (stage : ℕ) : (jobTerm stage).IsTerm :=
  Expr.isTerm_among (Expr.isOperand_column _ _) _

theorem isTerm_paramTerm (stage i : ℕ) : (paramTerm stage i).IsTerm :=
  Expr.isTerm_both (Expr.isTerm_equal (Expr.isOperand_column _ _) (Expr.isOperand_placeholder _))
    (Expr.isTerm_among (Expr.isOperand_column _ _) _)

def paramsTerm (r : RunMatch) (stage first : ℕ) : Expr :=
  .anyOf (r.params.zipIdx.map fun item => paramTerm stage (first + item.2))

theorem mem_conditions_terms {e : Expr} : e ∈ (r.terms stage first).conditions ↔
    (r.jobIds ≠ [] ∧ e = jobTerm stage) ∨ (r.params ≠ [] ∧ e = r.paramsTerm stage first) := by
  have hjobs : e ∈ (if r.jobIds.isEmpty then Terms.none
      else ⟨[jobTerm stage], [(Placeholder.value stage, .textList r.jobIds)]⟩).conditions ↔
      r.jobIds ≠ [] ∧ e = jobTerm stage := by
    cases r.jobIds <;> simp
  have hparams := Terms.mem_conditions_anyOf_single (e := e) r.params.zipIdx
    (fun item => paramTerm stage (first + item.2))
    fun item => [(Placeholder.name stage (first + item.2), .text item.1.1),
      (Placeholder.indexedValue stage (first + item.2), .textList item.1.2)]
  rw [Ne, List.zipIdx_eq_nil_iff] at hparams
  rw [terms, Terms.conditions_append, List.mem_append]
  exact or_congr hjobs hparams

theorem isTerm_of_mem {e : Expr} (h : e ∈ (r.terms stage first).conditions) : e.IsTerm := by
  rcases mem_conditions_terms.1 h with ⟨-, rfl⟩ | ⟨hne, rfl⟩
  · exact isTerm_jobTerm stage
  · refine Expr.isTerm_anyOf (by simpa using hne) fun c hc => ?_
    obtain ⟨item, -, rfl⟩ := List.mem_map.1 hc
    exact isTerm_paramTerm stage _

theorem holds_jobTerm (hbound : StageName.AreBound stage (r.carried first) bound) (hne : r.jobIds ≠ []) :
    (jobTerm stage).Holds bound cells ↔ ∃ id ∈ r.jobIds, cells "jr" "cicd_job_id" = some id :=
  Expr.holds_among (hbound .value _ (List.mem_append_left _ (by simp [StageName.listed, hne])))

theorem holds_paramTerm (hbound : StageName.AreBound stage (r.carried first) bound) {pair : String × List String} {i : ℕ}
    (h : (pair, i) ∈ r.params.zipIdx) : (paramTerm stage (first + i)).Holds bound cells ↔
      cells "jrp" "name" = some pair.1 ∧ ∃ v ∈ pair.2, cells "jrp" "value" = some v := by
  have hcarried {n : StageName} {value : ParamValue}
      (hv : (n, value) ∈ [(.name (first + i), .text pair.1), (.indexed (first + i), .textList pair.2)]) :
      (n, value) ∈ r.carried first := List.mem_append_right _ (List.mem_flatMap.2 ⟨(pair, i), h, hv⟩)
  exact and_congr (Expr.holds_equal_placeholder (hbound (.name (first + i)) _ (hcarried (by simp))))
    (Expr.holds_among (hbound (.indexed (first + i)) _ (hcarried (by simp))))

theorem holds_paramsTerm (hbound : StageName.AreBound stage (r.carried first) bound) :
    (r.paramsTerm stage first).Holds bound cells ↔ ∃ name values, (name, values) ∈ r.params ∧
      cells "jrp" "name" = some name ∧ ∃ v ∈ values, cells "jrp" "value" = some v := by
  rw [paramsTerm, Expr.holds_anyOf]
  constructor
  · rintro ⟨c, hc, hholds⟩
    obtain ⟨⟨pair, i⟩, hitem, rfl⟩ := List.mem_map.1 hc
    exact ⟨pair.1, pair.2, List.fst_mem_of_mem_zipIdx hitem, (holds_paramTerm hbound hitem).1 hholds⟩
  · rintro ⟨name, values, hpair, hholds⟩
    obtain ⟨i, hi⟩ := List.getElem?_of_mem hpair
    have hitem : ((name, values), i) ∈ r.params.zipIdx := List.mem_zipIdx_iff_getElem?.2 hi
    exact ⟨_, List.mem_map_of_mem hitem, (holds_paramTerm hbound hitem).2 hholds⟩

theorem holds_terms (hbound : StageName.AreBound stage (r.carried first) bound) :
    (∀ e ∈ (r.terms stage first).conditions, e.Holds bound cells) ↔ r.Fits cells := by
  constructor
  · refine fun h => ⟨fun hne => ?_, fun hne => ?_⟩
    · exact (holds_jobTerm hbound hne).1 (h _ (mem_conditions_terms.2 (.inl ⟨hne, rfl⟩)))
    · exact (holds_paramsTerm hbound).1 (h _ (mem_conditions_terms.2 (.inr ⟨hne, rfl⟩)))
  · intro h e he
    rcases mem_conditions_terms.1 he with ⟨hne, rfl⟩ | ⟨hne, rfl⟩
    · exact (holds_jobTerm hbound hne).2 (h.job hne)
    · exact (holds_paramsTerm hbound).2 (h.param hne)

/-- Some run with one of its parameters, of the marker's name, fits only if no other parameter is asked for, or one of
that very name. -/
theorem exists_fits_iff {marker : String} :
    (∃ cells : Cells, (∃ id, cells "jrp" "cicd_job_run_id" = some id ∧ cells "jr" "id" = some id) ∧ r.Fits cells ∧
      cells "jrp" "name" = some marker) ↔ r.params = [] ∨ ∃ values, (marker, values) ∈ r.params ∧ values ≠ [] := by
  constructor
  · rintro ⟨cells, -, hfits, hmarker⟩
    by_cases hne : r.params = []
    · exact .inl hne
    · obtain ⟨name, values, hpair, hname, v, hv, -⟩ := hfits.param hne
      cases hmarker.symm.trans hname
      exact .inr ⟨values, hpair, List.ne_nil_of_mem hv⟩
  · intro h
    obtain ⟨value, hvalue⟩ : ∃ value : Option String, r.params ≠ [] →
        ∃ values, (marker, values) ∈ r.params ∧ ∃ v ∈ values, value = some v := by
      rcases h with h | ⟨values, hpair, hne⟩
      · exact ⟨none, fun hne => absurd h hne⟩
      · obtain ⟨v, hv⟩ := List.exists_mem_of_ne_nil values hne
        exact ⟨some v, fun _ => ⟨values, hpair, v, hv, rfl⟩⟩
    let cells : Cells
      | "jr", "cicd_job_id" => r.jobIds.head?
      | "jrp", "name" => some marker
      | "jrp", "value" => value
      | _, _ => some ""
    refine ⟨cells, ⟨"", rfl, rfl⟩, ⟨fun hne => ?job, fun hne => ?param⟩, rfl⟩
    case job => exact ⟨_, List.head_mem hne, List.head?_eq_some_head hne⟩
    case param =>
      obtain ⟨values, hpair, hv⟩ := hvalue hne
      exact ⟨marker, values, hpair, rfl, hv⟩

end RunMatch

namespace StageEvent

open Clause

variable {ctx : EventContext} {stage : ℕ} {runs : RunMatch} {marker : String} {builds : List String} {bound : Bindings}

def markerTerm (stage : ℕ) : Expr := .equal (.column "jrp" "name") (.placeholder (Placeholder.name stage 0))

def deploying (ctx : EventContext) (stage : ℕ) (runs : RunMatch) : TableSelect :=
  DeploySelect.side ctx.joins.schema [.column "jrp" "value"]
    ((runs.terms stage 1).conditions ++ [markerTerm stage] ++ (runPredicates ctx stage).conditions)

/-- A deployment is read from deploying runs, paired with what they deploy. -/
theorem exists_supplied_ofDeploy (ctx : EventContext) (stage : ℕ) (runs : RunMatch) (marker : String)
    (builds : List String) : ∃ select link, select.left = deploying ctx stage runs ∧
      .supplied (.jobRun stage) (.join .left (.paired select) (Join.jobRun stage).tableAlias [link]) ∈
        (ofDeploy ctx stage runs marker builds).demand.requests :=
  ⟨_, _, rfl, List.mem_append_right _ (List.mem_singleton.2 rfl)⟩

theorem isTerm_markerTerm (stage : ℕ) : (markerTerm stage).IsTerm :=
  Expr.isTerm_equal (Expr.isOperand_column _ _) (Expr.isOperand_placeholder _)

section NoPredicates

variable (hpredicates : ctx.lastJobRun = some stage → ctx.runPredicates = [])

include hpredicates

theorem mem_deploying {e : Expr} :
    e ∈ (deploying ctx stage runs).conditions ↔ e ∈ (runs.terms stage 1).conditions ∨ e = markerTerm stage := by
  have hnone : (runPredicates ctx stage).conditions = [] := by
    unfold runPredicates
    split
    · exact hpredicates ‹_›
    · rfl
  simp [deploying, DeploySelect.side, hnone]

theorem isTerm_of_mem_deploying {e : Expr} (h : e ∈ (deploying ctx stage runs).conditions) : e.IsTerm := by
  rcases (mem_deploying hpredicates).1 h with h | rfl
  · exact RunMatch.isTerm_of_mem h
  · exact isTerm_markerTerm stage

/-- Deploying runs are those that fit, with a parameter of the marker's name. -/
theorem keeps_deploying_iff {cells : Cells}
    (hbound : StageName.AreBound stage (StageEvent.deployJobRun runs marker builds).carried bound) :
    (deploying ctx stage runs).Keeps bound cells ↔
      (∃ id, cells "jrp" "cicd_job_run_id" = some id ∧ cells "jr" "id" = some id) ∧ runs.Fits cells ∧
        cells "jrp" "name" = some marker := by
  have hruns : StageName.AreBound stage (runs.carried 1) bound := fun n value h =>
    hbound n value (List.mem_append_left _ (List.mem_append_left _ h))
  have hmarker : bound.get? (Placeholder.name stage 0) = some (.text marker) :=
    hbound (.name 0) _ (List.mem_append_left _ (List.mem_append_right _ (List.mem_singleton.2 rfl)))
  have hjoined : (∀ j ∈ (deploying ctx stage runs).joins, ∀ e ∈ j.on, e.Holds bound cells) ↔
      ∃ id, cells "jrp" "cicd_job_run_id" = some id ∧ cells "jr" "id" = some id := by
    simp only [deploying, DeploySelect.side, RunSelect.params, List.forall_mem_singleton]
    exact Expr.holds_same
  have hasked : (∀ e ∈ (deploying ctx stage runs).conditions, e.Holds bound cells) ↔
      runs.Fits cells ∧ cells "jrp" "name" = some marker := by
    rw [← RunMatch.holds_terms hruns, ← Expr.holds_equal_placeholder hmarker]
    simp only [mem_deploying hpredicates, or_imp, forall_and, forall_eq]
    exact Iff.rfl
  rw [← hjoined, ← hasked]
  exact ⟨fun h => ⟨h.joined, h.asked⟩, fun h => ⟨h.1, h.2⟩⟩

/-- Under what a stage binds, a deploying run is found only if no parameters but the marker are asked for, or one of the
marker's own name. -/
theorem exists_keeps_deploying_iff {name : String} {clause : StageClause}
    (h : (StageEvent.deployJobRun runs marker builds).clause ctx name stage = .ok clause) (bound : Bindings) :
    (∃ cells, (deploying ctx stage runs).Keeps (bound.insertAll clause.demand.bindings) cells) ↔
      runs.params = [] ∨ ∃ values, (marker, values) ∈ runs.params ∧ values ≠ [] := by
  have hbound : StageName.AreBound stage (StageEvent.deployJobRun runs marker builds).carried
      (bound.insertAll clause.demand.bindings) := fun n value hn => by
    rw [bindings_clause h]
    exact StageName.get?_insertAll_bindings (within_carried _).nodup hn bound stage
  simp only [keeps_deploying_iff hpredicates hbound]
  exact RunMatch.exists_fits_iff

end NoPredicates

end StageEvent

/-- The parameters of a stage of deployments besides those that are the deployment's own. -/
def Stage.otherParams (s : Stage) : List (String × List String) :=
  (RunMatch.ofEvent s.event [StageEvent.markerParam, StageEvent.buildJobsParam]).params

theorem StageEvent.ofStage_deploy {s : Stage} {event : StageEvent} (hkind : s.kind? = some .deployJobRun)
    (h : ofStage s = .ok event) : ∃ marker, (s.event.paramValues markerParam).head? = some marker ∧
      event = .deployJobRun ⟨s.event.values, s.otherParams⟩ marker (s.event.paramValues buildJobsParam) := by
  simp only [ofStage, hkind, Except.map_eq_ok] at h
  obtain ⟨marker, hmarker, rfl⟩ := h
  refine ⟨marker, ?_, rfl⟩
  unfold markerOf at hmarker
  cases hv : s.event.paramValues markerParam with
  | nil => simp [hv] at hmarker
  | cons first rest =>
    rw [hv] at hmarker
    simp only at hmarker
    split at hmarker <;> cases hmarker
    rfl

/-- A stage of deployments that asks for further parameters finds runs only where one of them has the name that the marker
gives, and a value: all are asked of the one parameter that names the build. -/
theorem StageEvent.finds_deployments_iff {s : Stage} {event : StageEvent} (hkind : s.kind? = some .deployJobRun)
    (h : ofStage s = .ok event) {ctx : EventContext} {stage : ℕ}
    (hpredicates : ctx.lastJobRun = some stage → ctx.runPredicates = []) (bound : Bindings) :
    ∃ marker clause select link, (s.event.paramValues markerParam).head? = some marker ∧
      event.clause ctx s.name stage = .ok clause ∧
      .supplied (.jobRun stage) (.join .left (.paired select) (Join.jobRun stage).tableAlias [link]) ∈ clause.demand.requests ∧
      (∀ e ∈ select.left.conditions, e.IsTerm) ∧
      ((∃ cells, select.left.Keeps (bound.insertAll clause.demand.bindings) cells) ↔
        s.otherParams = [] ∨ ∃ values, (marker, values) ∈ s.otherParams ∧ values ≠ []) := by
  obtain ⟨marker, hmarker, rfl⟩ := ofStage_deploy hkind h
  let runs : RunMatch := ⟨s.event.values, s.otherParams⟩
  let builds := s.event.paramValues buildJobsParam
  obtain ⟨select, link, hleft, hrequest⟩ := exists_supplied_ofDeploy ctx stage runs marker builds
  have hclause : (deployJobRun runs marker builds).clause ctx s.name stage =
      .ok (Clause.ofDeploy ctx stage runs marker builds) := rfl
  refine ⟨marker, _, select, link, hmarker, hclause, hrequest, ?terms, ?found⟩ <;> rw [hleft]
  case terms => exact fun e he => isTerm_of_mem_deploying hpredicates he
  case found => exact exists_keeps_deploying_iff hpredicates hclause bound

namespace Stage

def deployment (params : List (String × List String)) : Stage :=
  .new "deploy" 0 { Event.ofKind .deployJobRun with params := .ofList ((StageEvent.markerParam, ["BUILD_ID"]) :: params) }

end Stage

def EventContext.unfiltered : EventContext := ⟨⟨"public", ⟨.prVelocity, .issueTracker⟩, false, false⟩, none, [], none⟩

theorem StageEvent.finds_marked_deployments : ∃ event clause select link cells,
    ofStage (.deployment []) = .ok event ∧ event.clause .unfiltered "deploy" 0 = .ok clause ∧
    .supplied (.jobRun 0) (.join .left (.paired select) "run0" [link]) ∈ clause.demand.requests ∧
    select.left.Keeps (KeyMap.empty.insertAll clause.demand.bindings) cells := by
  have hkind : (Stage.deployment []).kind? = some .deployJobRun := by decide
  have hevent : ofStage (.deployment []) = .ok (.deployJobRun ⟨[], []⟩ "BUILD_ID" []) := by cbv
  have hparams : (Stage.deployment []).otherParams = [] := by decide
  have hunfiltered : EventContext.unfiltered.lastJobRun = some 0 → EventContext.unfiltered.runPredicates = [] := fun _ => rfl
  obtain ⟨marker, clause, select, link, -, hclause, hrequest, -, hfound⟩ :=
    finds_deployments_iff hkind hevent hunfiltered KeyMap.empty
  obtain ⟨cells, hkeeps⟩ := hfound.2 (.inl hparams)
  exact ⟨_, clause, select, link, cells, hevent, hclause, hrequest, hkeeps⟩

/-- A further parameter with a value leaves nothing to be found: no parameter of a run has two names. -/
theorem StageEvent.finds_no_deployments_to_prod : (∀ pair ∈ (Stage.deployment [("env", ["prod"])]).otherParams, pair.2 ≠ []) ∧
    ∃ event clause select link, ofStage (.deployment [("env", ["prod"])]) = .ok event ∧
      event.clause .unfiltered "deploy" 0 = .ok clause ∧
      .supplied (.jobRun 0) (.join .left (.paired select) "run0" [link]) ∈ clause.demand.requests ∧
      ¬ ∃ cells, select.left.Keeps (KeyMap.empty.insertAll clause.demand.bindings) cells := by
  let runs : RunMatch := ⟨[], [("env", ["prod"])]⟩
  have hparams : (Stage.deployment [("env", ["prod"])]).otherParams = runs.params := by decide
  have hevent : ofStage (.deployment [("env", ["prod"])]) = .ok (.deployJobRun runs "BUILD_ID" []) := by cbv
  have hunfiltered : EventContext.unfiltered.lastJobRun = some 0 → EventContext.unfiltered.runPredicates = [] := fun _ => rfl
  have hclause : (deployJobRun runs "BUILD_ID" []).clause .unfiltered "deploy" 0 =
      .ok (Clause.ofDeploy .unfiltered 0 runs "BUILD_ID" []) := rfl
  obtain ⟨select, link, hleft, hrequest⟩ := exists_supplied_ofDeploy .unfiltered 0 runs "BUILD_ID" []
  refine ⟨by simp [hparams, runs], _, _, select, link, hevent, hclause, hrequest, ?_⟩
  rw [hleft, exists_keeps_deploying_iff hunfiltered hclause]
  simp [runs]

end LeadTime
