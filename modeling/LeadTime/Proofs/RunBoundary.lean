import LeadTime.Proofs.IntegrationScope
import LeadTime.Proofs.Pipeline
import LeadTime.Proofs.QueryText
import LeadTime.Proofs.Requests
import LeadTime.Proofs.StageEvent.Runs
import Mathlib

/-! The filter of job runs bounds the last stage of job runs, and no other. A request is compared with the same one
without that filter: stage by stage, the two leave joins that differ by the filter's predicates on the runs of that stage
alone, and the conditions on whole rows differ by the bounds of its end. So the two queries are written alike, but for
what the line of those runs and the outer WHERE take. Without such a stage they come to one query. -/
namespace LeadTime

open Sql

def Request.withoutRunFilter (r : Request) : Request := { r with filters := { r.filters with jobRuns := none } }

def FilterRules.ofRuns (rules : FilterRules) (f : EntityFilters) : Except String Restriction :=
  match f.jobRuns with
  | none => .ok .none
  | some filter => rules.jobRuns filter Scope.runAlias f.orgUnit

/-- A bound of the end of runs: how it is written, and the name that it binds to an instant. -/
structure EndBound where
  text : String
  name : String
  instant : Instant

def TimeRange.endBounds (range : TimeRange) (stage : Nat) : List EndBound :=
  let bound (comparison name : String) (instant : Instant) : EndBound :=
    ⟨"run" ++ toString stage ++ ".end_time" ++ comparison ++ "to_timestamp(:" ++ name ++ ")", name, instant⟩
  range.start.toList.map (bound " > " ("s" ++ toString stage ++ "_job_run_end_start")) ++
    range.stop.toList.map (bound " < " ("s" ++ toString stage ++ "_job_run_end_end"))

/-- The bounds that the filter of job runs gives, if any. -/
def EntityFilters.endBounds (f : EntityFilters) (stage : Nat) : List EndBound :=
  (f.jobRuns.bind (·.endTime)).toList.flatMap (·.endBounds stage)

/-- The query of the plan is that of `p₀`, with the predicates of a filter on the runs of the stage at `last` and with
bounds of their end. -/
structure Plan.BoundsRuns (p p₀ : Plan) (last : Nat) (restriction : Restriction) (bounds : List EndBound) : Prop where
  written : p.Written
  bare : p₀.Written
  /-- The predicates come last in the select of the runs, and in no other line. -/
  lines : ∃ above below selected own built on,
    p₀.rowSelect.lines = above ++
      runLine ((p.pipeline.stages[last]?.bind Stage.kind?) = some .deployJobRun) last selected own built on :: below ∧
    p.rowSelect.lines = above ++
      runLine ((p.pipeline.stages[last]?.bind Stage.kind?) = some .deployJobRun) last selected
        (own ++ restriction.predicates.values.map Expr.text) built on :: below
  /-- The bounds are conditions on whole rows. -/
  conditions : ∃ before after, p₀.rowSelect.conditions = before ++ after ∧
    p.rowSelect.conditions = before ++ bounds.map (·.text) ++ after
  /-- All else is written as it is. -/
  rows : p.rowSelect = { p₀.rowSelect with lines := p.rowSelect.lines, conditions := p.rowSelect.conditions }
  around : ∃ before after, p.query.sql = before ++ p.rowSelect.text ++ after ∧
    p₀.query.sql = before ++ p₀.rowSelect.text ++ after
  layers : p.outerLayers = p₀.outerLayers
  shape : p.shape = p₀.shape
  stages : p.query.stages = p₀.query.stages
  bound : ∀ b ∈ bounds, p.query.bindings.get? b.name = some (.int (Int64.ofInt b.instant.seconds))
  /-- What the predicates bind is bound. -/
  named : restriction.isEmpty = false → ∀ name ∈ restriction.bindings.keys, name ∈ p.query.bindings.keys
  /-- Where a name is bound for nothing else, it has the value that the predicates bind. -/
  carried : restriction.isEmpty = false → ∀ name ∈ restriction.bindings.keys, name ∉ p₀.query.bindings.keys →
    name ∉ bounds.map (·.name) → p.query.bindings.get? name = restriction.bindings.get? name
  /-- All else is bound as it is. -/
  others : ∀ name, name ∉ restriction.bindings.keys → name ∉ bounds.map (·.name) →
    p.query.bindings.get? name = p₀.query.bindings.get? name

namespace Scope

variable {s : Scope}

def withoutRunFilter (s : Scope) : Scope := { s with filters := { s.filters with jobRuns := none } }

theorem clauses_eq_append {clauses : List ScopeClause} (h : s.clauses = clauses.map .ok) :
    ∃ front, clauses = front ++ s.endTimeClauses ∧ s.withoutRunFilter.clauses = front.map .ok := by
  have hends : s.withoutRunFilter.endTimeClauses = [] := by
    unfold endTimeClauses
    split
    · rename_i hnone
      cases hnone
    · rfl
  rw [Scope.clauses, eq_comm, List.map_eq_append_iff] at h
  obtain ⟨front, ends, rfl, hfront, he⟩ := h
  have hends' : ends = s.endTimeClauses := List.map_injective_iff.2 (fun _ _ h => Except.ok.inj h) he
  refine ⟨front, by rw [hends'], ?_⟩
  rw [Scope.clauses, hends, List.map_nil, List.append_nil, hfront]
  rfl

theorem text_endBound (stage : Nat) (instant : Instant) (operator : Operator) (placeholder : String) :
    (endBound stage operator placeholder instant).conditions.map Expr.text =
      ["run" ++ toString stage ++ ".end_time" ++ operator.text ++ "to_timestamp(:" ++ placeholder ++ ")"] := by
  simp only [endBound, Join.tableAlias, List.map_cons, List.map_nil, Expr.text, Expr.tokens, List.cons_append,
    List.nil_append, text_cons, text_nil, Token.text, String.append_assoc, String.append_empty]
  rfl

theorem exists_restriction {terms : Terms} {warnings : List Warning} (h : s.runTerms = .ok (terms, warnings)) :
    ∃ restriction, s.rules.ofRuns s.filters = .ok restriction ∧ ∀ last, s.lastJobRun = some last →
      terms.conditions = restriction.predicates.values ∧
        terms.bindings = if restriction.isEmpty then [] else restriction.bindings.entries := by
  unfold runTerms at h
  unfold FilterRules.ofRuns
  cases hf : s.filters.jobRuns with
  | none =>
    rw [hf] at h
    cases h
    exact ⟨.none, rfl, fun _ _ => ⟨rfl, rfl⟩⟩
  | some f =>
    simp only [hf] at h ⊢
    cases hr : s.rules.jobRuns f runAlias s.filters.orgUnit with
    | error reason => simp [hr] at h
    | ok restriction =>
      refine ⟨restriction, rfl, fun last hlast => ?_⟩
      simp only [hr, hlast, Option.isNone_some, Bool.false_eq_true, if_false] at h
      split at h <;> rename_i hempty <;> cases h
      · have hentries : restriction.predicates.entries = [] := List.isEmpty_iff.1 hempty
        rw [if_pos hempty, KeyMap.values, hentries]
        exact ⟨rfl, rfl⟩
      · rw [if_neg hempty]
        exact ⟨rfl, rfl⟩

theorem text_endTimeClauses {last : Nat} (h : s.lastJobRun = some last) :
    (s.endTimeClauses.flatMap ScopeClause.conditions).map Expr.text = (s.filters.endBounds last).map (·.text) := by
  unfold endTimeClauses EntityFilters.endBounds
  rw [h]
  cases s.filters.jobRuns.bind (·.endTime) with
  | none => rfl
  | some range =>
    obtain ⟨start, stop⟩ := range
    cases start <;> cases stop <;> simp [whenSome, nothing, text_endBound, TimeRange.endBounds, Operator.text,
      Placeholder.endTimeStart, Placeholder.endTimeStop]

theorem bindings_endTimeClauses {last : Nat} (h : s.lastJobRun = some last) :
    s.endTimeClauses.flatMap (·.demand.bindings) =
      (s.filters.endBounds last).map fun b => (b.name, .int (Int64.ofInt b.instant.seconds)) := by
  unfold endTimeClauses EntityFilters.endBounds
  rw [h]
  cases s.filters.jobRuns.bind (·.endTime) with
  | none => rfl
  | some range =>
    obtain ⟨start, stop⟩ := range
    cases start <;> cases stop <;> rfl

theorem join_requests {clauses : List ScopeClause} (h : s.clauses = clauses.map .ok) (stage : Nat) :
    ∀ req ∈ clauses.flatMap (·.demand.requests), req.join ≠ .jobRun stage := by
  obtain ⟨before, after, hb, ha, hr⟩ := requests_eq h
  have hentity : ∀ req, ForEntity req → req.join ≠ .jobRun stage := by
    rintro _ (rfl | rfl | rfl) <;> simp [JoinRequest.join]
  rw [hr]
  intro req hm
  rcases List.mem_append.1 hm with hm | hm
  · rcases List.mem_append.1 hm with hm | hm
    · exact hentity req (hb req hm)
    · rcases s.requests_sprintPart with hp | hp <;> rw [hp] at hm
      · cases hm
      · rw [List.mem_singleton.1 hm]
        simp [JoinRequest.join]
  · exact hentity req (ha req hm)

theorem isScoped_restrict (joins : Registry) (stage : Nat) (more : List Expr) :
    isScoped (joins.restrict stage more) = isScoped joins := by
  funext entity
  rw [isScoped, Registry.isJoined_restrict]
  rfl

theorem get?_bindIds_congr {a b : Bindings} {name : String} (h : a.get? name = b.get? name)
    (entities : List (Join × String × List String)) : (bindIds a entities).get? name = (bindIds b entities).get? name := by
  induction entities generalizing a b with
  | nil => exact h
  | cons entity rest ih => exact ih (KeyMap.get?_insertNew_congr h)

end Scope

theorem EntityFilters.nodup_endBounds (f : EntityFilters) (stage : Nat) :
    ((f.endBounds stage).map (·.name)).Nodup := by
  unfold endBounds
  cases f.jobRuns.bind (·.endTime) with
  | none => exact List.nodup_nil
  | some range =>
    obtain ⟨start, stop⟩ := range
    cases start <;> cases stop <;> simp [TimeRange.endBounds, String.append_assoc, String.append_right_inj]

namespace StageProgress

/-- What the stages added with predicates on the runs of the last stage of job runs, and what they add without: joins
that differ there alone, and the same of all else, but for what the predicates bind. -/
structure Restricts (last : Nat) (terms : Terms) (s₀ s : StageProgress) : Prop where
  joins : s.draft.joins = s₀.draft.joins.restrict last terms.conditions
  bindings : ∀ name, name ∉ terms.names → s.draft.bindings.get? name = s₀.draft.bindings.get? name
  carried : ∀ pair ∈ terms.bindings, pair.1 ∉ s₀.draft.bindings.keys → s.draft.bindings.get? pair.1 = some pair.2
  previousCi : s.previousCi = s₀.previousCi
  columns : s.columns = s₀.columns
  predicates : s.predicates = s₀.predicates

variable {last : Nat} {lastJobRun : Option Nat} {terms : Terms} {s₀ s : StageProgress}

theorem Restricts.agree_addStage (hlast : terms.conditions = [] ∨ lastJobRun = some last) (h : Restricts last terms s₀ s)
    (indexed : Stage × Nat) :
    Agree (Restricts last terms) (addStage lastJobRun [] s₀ indexed) (addStage lastJobRun terms.conditions s indexed) := by
  obtain ⟨stage, index⟩ := indexed
  have hcontext : s.draft.joins.context = s₀.draft.joins.context := by rw [h.joins, Registry.context_restrict]
  have hevent : Agree Eq (StageEvent.ofStage stage) (StageEvent.ofStage stage) := .refl (fun _ => rfl) _
  refine hevent.bind ?_
  rintro event _ rfl
  have hclause : event.clause ⟨s.draft.joins.context, lastJobRun, terms.conditions, s.previousCi⟩ stage.name index =
      (event.clause ⟨s₀.draft.joins.context, lastJobRun, [], s₀.previousCi⟩ stage.name index).map
        (·.restrict last terms.conditions) := by
    rw [hcontext, h.previousCi]
    exact StageEvent.clause_eq hlast event stage.name index
  refine (Agree.of_eq_map hclause).bind ?_
  rintro clause _ rfl
  refine .ok ⟨?_, fun name hn => KeyMap.get?_insertAll_congr (h.bindings name hn), fun pair hp hn => ?_, ?_, ?_, ?_⟩
  · rw [Draft.meet, Draft.meet, h.joins, Registry.restrict_requestAll]
    rfl
  · obtain ⟨hbefore, hclause⟩ := not_or.1 (KeyMap.mem_keys_insertAll.not.1 hn)
    exact (KeyMap.get?_insertAll_of_notMem hclause).trans (h.carried pair hp hbefore)
  · rw [h.previousCi]
  · rw [h.columns]
    rfl
  · rw [h.predicates]
    rfl

end StageProgress

namespace Compilation

variable {c : Compiler} {r : Request} (k : Compilation c r)

def bareFirst : StageProgress where
  draft := (Draft.empty k.context).meet
    (⟨Compiler.firstRequests r.query k.pipeline.anchor, []⟩ ++ k.start.demand ++ ⟨[], []⟩)
  previousCi := none
  columns := []
  predicates := []

def AddsBare (progress : StageProgress) : Prop :=
  k.pipeline.stages.zipIdx.foldlM (StageProgress.addStage k.pipeline.lastJobRun? []) k.bareFirst = .ok progress

/-- The compilation without the filter of job runs, out of what its stages add and of its clauses. -/
def withoutRunFilter (progress : StageProgress) (clauses : List ScopeClause) (added : k.AddsBare progress)
    (posed : k.scope.withoutRunFilter.clauses = clauses.map .ok) : Compilation c r.withoutRunFilter where
  pipeline := k.pipeline
  shape := k.shape
  stack := k.stack
  runTerms := .none
  runWarnings := []
  progress := progress
  clauses := clauses
  assembled := k.assembled
  shaped := k.shaped
  stacked := k.stacked
  ranOver := rfl
  added := added
  posed := posed

theorem join_firstRequests (stage : Nat) : ∀ req ∈ k.firstRequests, req.join ≠ .jobRun stage := by
  intro req hr
  rcases k.mem_firstRequests_cases hr with rfl | rfl | hr
  · simp [JoinRequest.join]
  · simp [JoinRequest.join]
  · rcases k.spec_start.joins req hr with h | h <;> simp [h]

theorem nodup_runTerms : k.runTerms.names.Nodup := by
  rcases Scope.runTerms_eq_ok k.ranOver with h | ⟨-, f, restriction, -, -, h⟩ <;> rw [h]
  · exact List.nodup_nil
  · exact restriction.bindings.nodup

theorem restricts_first (last : Nat) : StageProgress.Restricts last k.runTerms k.bareFirst k.first := by
  have hsame : k.bareFirst.draft.joins = k.first.draft.joins := rfl
  refine ⟨?_, fun name hn => ?_, fun pair hp _ => ?_, rfl, rfl, rfl⟩
  · rw [hsame, joins_first, Registry.restrict_requestAll, JoinRequest.map_restrict_of_ne (k.join_firstRequests last)]
    rfl
  · have hbindings : k.bareFirst.draft.bindings = KeyMap.empty.insertAll (k.start.demand.bindings ++ []) := rfl
    rw [bindings_first, hbindings, List.append_nil, KeyMap.insertAll_append, KeyMap.get?_insertAll_of_notMem hn]
  · rw [bindings_first, KeyMap.insertAll_append]
    exact KeyMap.get?_insertAll_of_count hp (List.count_eq_one_of_mem k.nodup_runTerms (List.mem_map_of_mem hp))

theorem exists_progress {last : Nat} (hlast : k.runTerms.conditions = [] ∨ k.pipeline.lastJobRun? = some last) :
    ∃ progress, k.AddsBare progress ∧ StageProgress.Restricts last k.runTerms progress k.progress := by
  have hagree : Agree (StageProgress.Restricts last k.runTerms)
      (k.pipeline.stages.zipIdx.foldlM (StageProgress.addStage k.pipeline.lastJobRun? []) k.bareFirst)
      ((k.pipeline.stages.zipIdx.map id).foldlM
        (StageProgress.addStage k.pipeline.lastJobRun? k.runTerms.conditions) k.first) :=
    Agree.foldlM (fun indexed s₀ s h => h.agree_addStage hlast indexed) (k.restricts_first last)
  have hadded : (k.pipeline.stages.zipIdx.map id).foldlM
      (StageProgress.addStage k.pipeline.lastJobRun? k.runTerms.conditions) k.first = .ok k.progress := by
    rw [List.map_id]
    exact k.added
  rw [hadded] at hagree
  exact hagree.exists_left

theorem runsAre_met : k.met.joins.RunsAre fun i line => ∀ stage, k.pipeline.stages[i]? = some stage →
    line.OfRuns (stage.kind? = some .deployJobRun) i := by
  have hfirst : ∀ req ∈ k.firstRequests, ∀ i, req.join ≠ .jobRun i := fun req hr i => k.join_firstRequests i req hr
  -- The runs of a stage are asked for by its own clause, and by nothing before or after the stages.
  have hprogress : k.progress.draft.joins.RunsAre fun i line => ∀ stage, k.pipeline.stages[i]? = some stage →
      line.OfRuns (stage.kind? = some .deployJobRun) i := by
    refine k.induction (P := fun _ s => s.draft.joins.RunsAre fun i line => ∀ stage,
      k.pipeline.stages[i]? = some stage → line.OfRuns (stage.kind? = some .deployJobRun) i) ?_ ?_
    · rw [joins_first]
      refine Registry.RunsAre.requestAll (fun e he => ?_) (fun i hm => ?_) fun i line hm => ?_
      · simp [Registry.empty] at he
      · exact absurd rfl (hfirst _ hm i)
      · exact absurd rfl (hfirst _ hm i)
    · intro i s stage event clause hst he hc _ hs
      refine hs.requestAll (fun j hm => ?_) fun j line hm => ?_
      · have hproper := (StageEvent.spec_clause hc).proper _ hm
        cases hproper
      · obtain ⟨rfl, hline⟩ := StageEvent.ofRuns_of_mem hc hm
        intro stage' hst'
        rw [hst] at hst'
        cases hst'
        rw [StageEvent.kind_ofStage he]
        simpa using hline
  rw [joins_met]
  exact hprogress.requestAll (fun i hm => absurd rfl (Scope.join_requests k.posed i _ hm))
    fun i line hm => absurd rfl (Scope.join_requests k.posed i _ hm)

section Last

variable {last : Nat} {progress : StageProgress} {clauses : List ScopeClause} {added : k.AddsBare progress}
  {posed : k.scope.withoutRunFilter.clauses = clauses.map .ok}

theorem joins_met_eq (h : StageProgress.Restricts last k.runTerms progress k.progress)
    (hclauses : k.clauses = clauses ++ k.scope.endTimeClauses) :
    k.met.joins = (k.withoutRunFilter progress clauses added posed).met.joins.restrict last k.runTerms.conditions := by
  have hbare : (k.withoutRunFilter progress clauses added posed).met.joins =
      progress.draft.joins.requestAll (clauses.flatMap (·.demand.requests)) := Draft.joins_meetAll _ _
  rw [joins_met, hclauses, List.flatMap_append, Scope.requests_endTimeClauses, List.append_nil, h.joins, hbare,
    Registry.restrict_requestAll, JoinRequest.map_restrict_of_ne (Scope.join_requests posed last)]

theorem scopedEntities_eq_of_joins {more : List Expr}
    (h : k.met.joins = (k.withoutRunFilter progress clauses added posed).met.joins.restrict last more) :
    k.scopedEntities = (k.withoutRunFilter progress clauses added posed).scopedEntities := by
  rw [scopedEntities, scopedEntities, Scope.scopedEntities, Scope.scopedEntities, h, Scope.isScoped_restrict]
  rfl

theorem layers_eq (h : StageProgress.Restricts last k.runTerms progress k.progress) :
    k.plan.layers = { (k.withoutRunFilter progress clauses added posed).plan.layers with
      chain := k.plan.layers.chain, conditions := k.plan.layers.conditions } :=
  congrArg (fun columns => ({ (k.withoutRunFilter progress clauses added posed).plan.layers with
    chain := k.plan.layers.chain, conditions := k.plan.layers.conditions, stages := columns } : Layers)) h.columns

/-- The bounds of the end of runs stand between the clauses on whole rows and the conditions on joined entities. -/
theorem exists_bounded_conditions (hlast : k.scope.lastJobRun = some last)
    (h : StageProgress.Restricts last k.runTerms progress k.progress)
    (hclauses : k.clauses = clauses ++ k.scope.endTimeClauses) : ∃ before after,
      (k.withoutRunFilter progress clauses added posed).plan.rowSelect.conditions = before ++ after ∧
        k.plan.rowSelect.conditions = before ++ (r.filters.endBounds last).map (·.text) ++ after := by
  have hbare : (k.withoutRunFilter progress clauses added posed).plan.layers.conditions =
      clauses.flatMap ScopeClause.conditions ++ (k.scoping ++ k.progress.predicates) := by
    rw [scoping, k.scopedEntities_eq_of_joins (k.joins_met_eq h hclauses), h.predicates, ← List.append_assoc]
    rfl
  have hplan : k.plan.layers.conditions =
      k.clauses.flatMap ScopeClause.conditions ++ k.scoping ++ k.progress.predicates := rfl
  have hbounds : (k.scope.endTimeClauses.flatMap ScopeClause.conditions).map Expr.text =
      (r.filters.endBounds last).map (·.text) := Scope.text_endTimeClauses hlast
  refine ⟨(clauses.flatMap ScopeClause.conditions).map Expr.text,
    (k.scoping ++ k.progress.predicates).map Expr.text, ?_, ?_⟩
  · rw [Plan.rowSelect, hbare, List.map_append]
  · rw [Plan.rowSelect, hplan, hclauses, List.flatMap_append, ← hbounds]
    simp only [List.map_append, List.append_assoc]

theorem get?_bindings_eq (h : StageProgress.Restricts last k.runTerms progress k.progress)
    (hclauses : k.clauses = clauses ++ k.scope.endTimeClauses)
    (hends : k.scope.endTimeClauses.flatMap (·.demand.bindings) =
      (r.filters.endBounds last).map fun b => (b.name, .int (Int64.ofInt b.instant.seconds)))
    {name : String} (hn : name ∉ k.runTerms.names) (hb : name ∉ (r.filters.endBounds last).map (·.name)) :
    k.bindings.get? name = (k.withoutRunFilter progress clauses added posed).bindings.get? name := by
  have hbare : (k.withoutRunFilter progress clauses added posed).met.bindings =
      progress.draft.bindings.insertAll (clauses.flatMap (·.demand.bindings)) := Draft.bindings_meetAll _ _
  rw [bindings, bindings, k.scopedEntities_eq_of_joins (k.joins_met_eq h hclauses)]
  refine Scope.get?_bindIds_congr ?_ _
  rw [hbare, met, Draft.bindings_meetAll, hclauses, List.flatMap_append, hends, KeyMap.insertAll_append,
    KeyMap.get?_insertAll_of_notMem (by simpa [Function.comp_def] using hb)]
  exact KeyMap.get?_insertAll_congr (h.bindings name hn)

theorem get?_carried (h : StageProgress.Restricts last k.runTerms progress k.progress)
    (hclauses : k.clauses = clauses ++ k.scope.endTimeClauses)
    (hends : k.scope.endTimeClauses.flatMap (·.demand.bindings) =
      (r.filters.endBounds last).map fun b => (b.name, .int (Int64.ofInt b.instant.seconds)))
    {pair : String × ParamValue} (hp : pair ∈ k.runTerms.bindings)
    (hn : pair.1 ∉ (k.withoutRunFilter progress clauses added posed).bindings.keys)
    (hb : pair.1 ∉ (r.filters.endBounds last).map (·.name)) : k.bindings.get? pair.1 = some pair.2 := by
  have hbare : (k.withoutRunFilter progress clauses added posed).met.bindings =
      progress.draft.bindings.insertAll (clauses.flatMap (·.demand.bindings)) := Draft.bindings_meetAll _ _
  rw [bindings, Scope.mem_keys_bindIds, hbare, KeyMap.mem_keys_insertAll, not_or, not_or] at hn
  obtain ⟨⟨hprogress, hscope⟩, -⟩ := hn
  refine Scope.get?_bindIds_of_bound ?_ _
  rw [met, Draft.bindings_meetAll, hclauses, List.flatMap_append, hends, KeyMap.insertAll_append,
    KeyMap.get?_insertAll_of_notMem (by simpa [Function.comp_def] using hb), KeyMap.get?_insertAll_of_notMem hscope]
  exact h.carried pair hp hprogress

end Last

theorem get?_endBound {last : Nat} {clauses : List ScopeClause} (hclauses : k.clauses = clauses ++ k.scope.endTimeClauses)
    (hends : k.scope.endTimeClauses.flatMap (·.demand.bindings) =
      (r.filters.endBounds last).map fun b => (b.name, .int (Int64.ofInt b.instant.seconds)))
    {b : EndBound} (hb : b ∈ r.filters.endBounds last) :
    k.bindings.get? b.name = some (.int (Int64.ofInt b.instant.seconds)) := by
  refine Scope.get?_bindIds_of_bound ?_ _
  rw [met, Draft.bindings_meetAll, hclauses, List.flatMap_append, hends, KeyMap.insertAll_append]
  refine KeyMap.get?_insertAll_of_count (List.mem_map.2 ⟨b, hb, rfl⟩) ?_
  rw [List.map_map]
  exact List.count_eq_one_of_mem (r.filters.nodup_endBounds last) (List.mem_map_of_mem hb)

theorem names_runTerms : ∀ name ∈ k.runTerms.names, name ∈ k.bindings.keys := by
  intro name hn
  have hfirst : name ∈ k.first.draft.bindings.keys := by
    rw [bindings_first, KeyMap.mem_keys_insertAll, List.map_append, List.mem_append]
    exact Or.inr (Or.inr hn)
  have hprogress : name ∈ k.progress.draft.bindings.keys :=
    k.induction (P := fun _ s => name ∈ s.draft.bindings.keys) hfirst
      fun _ _ _ _ _ _ _ _ _ hs => KeyMap.mem_keys_insertAll.2 (Or.inl hs)
  rw [bindings, Scope.mem_keys_bindIds, met, Draft.bindings_meetAll, KeyMap.mem_keys_insertAll]
  exact Or.inl (Or.inl hprogress)

theorem exists_entry {last : Nat} (hlast : k.pipeline.lastJobRun? = some last) :
    ∃ e ∈ k.met.joins.entries, e.join = .jobRun last ∧ ∃ line, e.lines = [line] ∧
      line.OfRuns ((k.pipeline.stages[last]?.bind Stage.kind?) = some .deployJobRun) last := by
  have hholds : k.met.joins.holds (.jobRun last) = true :=
    Registry.holds_of_isJoined (k.isJoined_met (k.isJoined_lastJobRun hlast)) (Join.ne_anchor_of_stage rfl _)
  obtain ⟨e, he, hj⟩ := Registry.holds_iff.1 hholds
  obtain ⟨line, hl, hline⟩ := k.runsAre_met e he last hj
  obtain ⟨stage, hst, -⟩ := Pipeline.lastJobRun?_eq_some hlast
  have hkind : k.pipeline.stages[last]?.bind Stage.kind? = stage.kind? := by rw [hst, Option.bind_some]
  refine ⟨e, he, hj, line, hl, ?_⟩
  rw [hkind]
  exact hline stage hst

theorem exists_runLines {last : Nat} (hlast : k.pipeline.lastJobRun? = some last) (more : List Expr) :
    ∃ above below selected own built on,
      k.met.joins.lines.map (fun line => text line.tokens) = above ++
        runLine ((k.pipeline.stages[last]?.bind Stage.kind?) = some .deployJobRun) last selected own built on :: below ∧
      (k.met.joins.restrict last more).lines.map (fun line => text line.tokens) = above ++
        runLine ((k.pipeline.stages[last]?.bind Stage.kind?) = some .deployJobRun) last selected
          (own ++ more.map Expr.text) built on :: below := by
  obtain ⟨e, he, hj, line, hl, hline⟩ := k.exists_entry hlast
  -- Nothing else puts conditions on runs, so that the entry is the one line that was handed in.
  have hnone : e.conditions = [] := k.conditions_eq_nil he (by simp [hj]) (by simp [hj])
  obtain ⟨above, below, hbare, hlines⟩ := Registry.exists_lines_restrict k.formed_met.nodup he hj hl hnone
  obtain ⟨selected, own, built, on, htext⟩ := hline.exists_runLine
  have hown := htext []
  rw [JoinLine.restrict_nil, List.map_nil, List.append_nil] at hown
  refine ⟨above.map fun line => text line.tokens, below.map fun line => text line.tokens, selected, own, built, on, ?_, ?_⟩
  · rw [hbare, List.map_append, List.map_cons, hown]
  · rw [hlines, List.map_append, List.map_cons, htext]

/-- The filter bounds the runs of the last stage of job runs, and nothing else differs without it. -/
theorem exists_boundsRuns {last : Nat} (hlast : k.pipeline.lastJobRun? = some last) {restriction : Restriction}
    (hconditions : k.runTerms.conditions = restriction.predicates.values)
    (hbindings : k.runTerms.bindings = if restriction.isEmpty then [] else restriction.bindings.entries) :
    ∃ k₀ : Compilation c r.withoutRunFilter,
      k.plan.BoundsRuns k₀.plan last restriction (r.filters.endBounds last) := by
  obtain ⟨progress, added, hprogress⟩ := k.exists_progress (Or.inr hlast)
  have hposed : k.scope.clauses = k.clauses.map .ok := k.posed
  obtain ⟨clauses, hclauses, posed⟩ := Scope.clauses_eq_append hposed
  have hends : k.scope.endTimeClauses.flatMap (·.demand.bindings) = _ := Scope.bindings_endTimeClauses hlast
  let k₀ : Compilation c r.withoutRunFilter := k.withoutRunFilter progress clauses added posed
  have hjoins : k.met.joins = k₀.met.joins.restrict last restriction.predicates.values :=
    hconditions ▸ k.joins_met_eq hprogress hclauses
  have hlayers : k.plan.layers =
      { k₀.plan.layers with chain := k.plan.layers.chain, conditions := k.plan.layers.conditions } := k.layers_eq hprogress
  have houter : k.plan.outerLayers = k₀.plan.outerLayers := by
    rw [Plan.outerLayers, hlayers]
    rfl
  refine ⟨k₀, ?_⟩
  constructor
  case written => exact k.written_plan
  case bare => exact k₀.written_plan
  case lines =>
    obtain ⟨above, below, selected, own, built, on, hbare, hlines⟩ := k₀.exists_runLines hlast restriction.predicates.values
    rw [← hjoins] at hlines
    exact ⟨above, below, selected, own, built, on, hbare, hlines⟩
  case conditions => exact k.exists_bounded_conditions hlast hprogress hclauses
  case rows =>
    have hitems : k.plan.layers.baseItems = k₀.plan.layers.baseItems := by
      rw [hlayers]
      rfl
    have hsource : k.plan.layers.source = k₀.plan.layers.source := by rw [hlayers]
    rw [Plan.rowSelect, Plan.rowSelect, hitems, hsource]
  case around => exact k.written_plan.exists_around k₀.written_plan houter rfl
  case layers => exact houter
  case shape => rfl
  case stages => rfl
  case bound => exact fun b hb => k.get?_endBound hclauses hends hb
  case named =>
    intro hne name hn
    refine k.names_runTerms name ?_
    rw [Terms.names, hbindings, hne]
    exact hn
  case carried =>
    intro hne name hn hbare hb
    obtain ⟨pair, hpair, rfl⟩ := List.mem_map.1 hn
    have hterm : pair ∈ k.runTerms.bindings := by
      rw [hbindings, hne]
      exact hpair
    exact (k.get?_carried hprogress hclauses hends hterm hbare hb).trans (KeyMap.get?_of_mem_entries hpair).symm
  case others =>
    intro name hn hb
    refine k.get?_bindings_eq hprogress hclauses hends (fun hm => hn ?_) hb
    rw [Terms.names, hbindings] at hm
    split at hm
    · cases hm
    · exact hm

/-- Without a stage of job runs the filter says nothing. -/
theorem exists_query_eq (hlast : k.pipeline.lastJobRun? = none) :
    ∃ k₀ : Compilation c r.withoutRunFilter, k.plan.query = k₀.plan.query := by
  have hposed : k.scope.clauses = k.clauses.map .ok := k.posed
  have hnone : k.runTerms = .none := by
    rcases Scope.runTerms_eq_ok k.ranOver with h | ⟨⟨last, hl⟩, -⟩
    · exact h
    · have hsome : k.pipeline.lastJobRun? = some last := hl
      rw [hlast] at hsome
      cases hsome
  have added : k.AddsBare k.progress := by
    have h := k.added
    rw [hnone] at h
    exact h
  have hends : k.scope.endTimeClauses = [] := by
    have hscope : k.scope.lastJobRun = none := hlast
    unfold Scope.endTimeClauses
    rw [hscope]
  obtain ⟨clauses, hclauses, posed⟩ := Scope.clauses_eq_append hposed
  rw [hends, List.append_nil] at hclauses
  subst hclauses
  exact ⟨k.withoutRunFilter k.progress k.clauses added posed, rfl⟩

end Compilation

/-- A filter of job runs bounds the last stage of job runs of a pipeline, and that stage alone; without one, the query is
that of a request without the filter. -/
theorem Compiler.boundsLastRuns_of_compile {c : Compiler} {r : Request} {q : CompiledQuery} (h : c.compile r = .ok q) :
    ∃ restriction p p₀, c.rules.ofRuns r.filters = .ok restriction ∧ c.plan r = .ok p ∧ p.query = q ∧
      c.plan r.withoutRunFilter = .ok p₀ ∧
      (∀ last, p.pipeline.IsLastRunStage last → p.BoundsRuns p₀ last restriction (r.filters.endBounds last)) ∧
      ((∀ last, ¬ p.pipeline.IsLastRunStage last) → q = p₀.query) := by
  obtain ⟨k, rfl⟩ := Compilation.of_compile h
  obtain ⟨restriction, hrestriction, hterms⟩ := Scope.exists_restriction k.ranOver
  cases hlast : k.pipeline.lastJobRun? with
  | none =>
    obtain ⟨k₀, hquery⟩ := k.exists_query_eq hlast
    refine ⟨restriction, k.plan, k₀.plan, hrestriction, k.plan_eq_ok, rfl, k₀.plan_eq_ok, fun last hl => ?_, fun _ => hquery⟩
    have hnone : k.pipeline.lastJobRun? = some last := Pipeline.isLastRunStage_iff.1 hl
    rw [hlast] at hnone
    cases hnone
  | some last =>
    obtain ⟨hconditions, hbindings⟩ := hterms last hlast
    obtain ⟨k₀, hbounds⟩ := k.exists_boundsRuns hlast hconditions hbindings
    refine ⟨restriction, k.plan, k₀.plan, hrestriction, k.plan_eq_ok, rfl, k₀.plan_eq_ok, fun last' hl => ?_, fun hn => ?_⟩
    · have hsome : k.pipeline.lastJobRun? = some last' := Pipeline.isLastRunStage_iff.1 hl
      rw [hlast] at hsome
      cases hsome
      exact hbounds
    · exact absurd (Pipeline.isLastRunStage_iff.2 hlast) (hn last)

def Request.recentDelivery : Request :=
  { delivery with
    filters := { delivery.filters with
      jobRuns := some ⟨some ⟨some ⟨⟨⟨2024, 1, 1⟩, 0, 0, 0, 0⟩, by decide⟩, none⟩, false,
        .ofList [("exclude_status", ["FAILED"])]⟩ } }

theorem Request.isOk_plan_recentDelivery : ((⟨.standard, .criteria⟩ : Compiler).plan recentDelivery).isOk = true := by cbv

/-- The runs that deploy, which come after those that build, take the predicate and the bound. -/
theorem Compiler.boundsLastRuns_recentDelivery : ∃ q, (⟨.standard, .criteria⟩ : Compiler).compile .recentDelivery = .ok q ∧
    ∃ restriction p p₀, FilterRules.criteria.ofRuns Request.recentDelivery.filters = .ok restriction ∧
      (⟨.standard, .criteria⟩ : Compiler).plan .recentDelivery = .ok p ∧ p.query = q ∧
      (⟨.standard, .criteria⟩ : Compiler).plan Request.recentDelivery.withoutRunFilter = .ok p₀ ∧
      p.BoundsRuns p₀ 3 restriction (Request.recentDelivery.filters.endBounds 3) := by
  obtain ⟨q, hq⟩ := exists_compile_eq_ok Request.isOk_plan_recentDelivery
  obtain ⟨restriction, p, p₀, hr, hp, hpq, hp₀, hbounds, -⟩ := boundsLastRuns_of_compile hq
  have hlast : p.pipeline.lastJobRun? = some 3 := by
    obtain ⟨k, rfl⟩ := Compilation.of_plan hp
    have hstages : k.plan.pipeline.stages = Pipeline.stagesOf Request.recentDelivery.pipeline := k.stages_eq
    rw [Pipeline.lastJobRun?, hstages]
    cbv
  exact ⟨q, hq, restriction, p, p₀, hr, hp, hpq, hp₀, hbounds 3 (Pipeline.isLastRunStage_iff.2 hlast)⟩

end LeadTime
