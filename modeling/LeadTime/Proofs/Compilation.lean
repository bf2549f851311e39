import LeadTime.Plan
import LeadTime.Proofs.Bindings
import LeadTime.Proofs.Except
import LeadTime.Proofs.Registry.Chain
import Mathlib

/-! Compiling as a run. A plan that is returned comes with what each step yielded (`Compilation`), and its stages were
added one after the other; `Compilation.induction` carries a property of what was added so far from one stage
to the next. -/
namespace LeadTime

open Sql

namespace StageProgress

def add (s : StageProgress) (index : Nat) (event : StageEvent) (clause : StageClause) : StageProgress where
  draft := s.draft.meet clause.demand
  previousCi := StageEvent.nextCi s.previousCi index event
  columns := s.columns ++ [⟨clause.timestamp, clause.aggregate⟩]
  predicates := s.predicates ++ clause.predicates

theorem addStage_eq_ok {last : Option Nat} {runs : List Expr} {s s' : StageProgress} {stage : Stage}
    {index : Nat} :
    addStage last runs s (stage, index) = .ok s' ↔
      ∃ event clause, StageEvent.ofStage stage = .ok event ∧
        event.clause ⟨s.draft.joins.context, last, runs, s.previousCi⟩ stage.name index = .ok clause ∧
        s' = s.add index event clause := by
  simp only [addStage, Except.bind_eq_ok]
  constructor
  · rintro ⟨event, he, clause, hc, hs⟩
    cases hs
    exact ⟨event, clause, he, hc, rfl⟩
  · rintro ⟨event, clause, he, hc, rfl⟩
    exact ⟨event, he, clause, hc, rfl⟩

end StageProgress

@[simp] theorem Draft.context_meet (d : Draft) (demand : Demand) :
    (d.meet demand).joins.context = d.joins.context := Registry.context_requestAll

def Draft.meetAll (d : Draft) (clauses : List ScopeClause) : Draft :=
  clauses.foldl (fun d clause => d.meet clause.demand) d

@[simp] theorem Draft.meetAll_cons (d : Draft) (clause : ScopeClause) (rest : List ScopeClause) :
    d.meetAll (clause :: rest) = (d.meet clause.demand).meetAll rest := rfl

theorem Draft.joins_meetAll (d : Draft) (clauses : List ScopeClause) :
    (d.meetAll clauses).joins = d.joins.requestAll (clauses.flatMap (·.demand.requests)) := by
  induction clauses generalizing d with
  | nil => rfl
  | cons clause rest ih => rw [meetAll_cons, ih, List.flatMap_cons, Registry.requestAll_append]; rfl

theorem Draft.bindings_meetAll (d : Draft) (clauses : List ScopeClause) :
    (d.meetAll clauses).bindings = d.bindings.insertAll (clauses.flatMap (·.demand.bindings)) := by
  induction clauses generalizing d with
  | nil => rfl
  | cons clause rest ih => rw [meetAll_cons, ih, List.flatMap_cons, KeyMap.insertAll_append]; rfl

theorem Draft.meetEach_eq_ok {d d' : Draft} {steps : List (Except Error ScopeClause)} {conditions : List Expr}
    (h : d.meetEach steps = (d', .ok conditions)) :
    ∃ clauses, steps = clauses.map .ok ∧ d' = d.meetAll clauses ∧
      conditions = clauses.flatMap ScopeClause.conditions := by
  induction steps generalizing d conditions with
  | nil =>
    cases h
    exact ⟨[], rfl, rfl, rfl⟩
  | cons step rest ih =>
    cases step with
    | error e => cases h
    | ok clause =>
      cases hr : (d.meet clause.demand).meetEach rest with
      | mk d₁ more =>
        simp only [meetEach, hr, Prod.mk.injEq, Except.map_eq_ok] at h
        obtain ⟨rfl, conditions', rfl, rfl⟩ := h
        obtain ⟨clauses, rfl, rfl, rfl⟩ := ih hr
        exact ⟨clause :: clauses, rfl, rfl, rfl⟩

theorem Draft.meetEach_map_ok (d : Draft) (clauses : List ScopeClause) :
    d.meetEach (clauses.map .ok) = (d.meetAll clauses, .ok (clauses.flatMap ScopeClause.conditions)) := by
  induction clauses generalizing d with
  | nil => rfl
  | cons clause rest ih =>
    rw [List.map_cons, meetEach, ih]
    rfl

namespace Scope

def isScoped (joins : Registry) (entity : Join × String × List String) : Bool :=
  !joins.isAnchor entity.1 && joins.isJoined entity.1 && !entity.2.2.isEmpty

/-- Binds the integrations of entities, where the name is not bound yet. -/
def bindIds (bindings : Bindings) (entities : List (Join × String × List String)) : Bindings :=
  entities.foldl (fun b entity => b.insertNew entity.2.1 (.textList entity.2.2)) bindings

theorem mem_keys_bindIds {name : String} {b : Bindings} {entities : List (Join × String × List String)} :
    name ∈ (bindIds b entities).keys ↔ name ∈ b.keys ∨ ∃ entity ∈ entities, name = entity.2.1 := by
  induction entities generalizing b with
  | nil => simp [bindIds]
  | cons entity rest ih =>
    have h : name ∈ (bindIds b (entity :: rest)).keys ↔ _ := ih (b := b.insertNew entity.2.1 (.textList entity.2.2))
    rw [h, KeyMap.mem_keys_insertNew, or_assoc]
    simp

theorem get?_bindIds_of_bound {b : Bindings} {name : String} {value : ParamValue} (h : b.get? name = some value)
    (entities : List (Join × String × List String)) : (bindIds b entities).get? name = some value := by
  induction entities generalizing b with
  | nil => exact h
  | cons entity rest ih => exact ih (KeyMap.get?_insertNew_of_bound h)

theorem scopeEntities_eq (d : Draft) (entities : List (Join × String × List String)) :
    scopeEntities d entities =
      ({ d with bindings := bindIds d.bindings (entities.filter (isScoped d.joins)) },
        (entities.filter (isScoped d.joins)).map fun entity => optionalCondition entity.1 entity.2.1) := by
  induction entities generalizing d with
  | nil => rfl
  | cons entity rest ih =>
    obtain ⟨j, placeholder, ids⟩ := entity
    by_cases h : isScoped d.joins (j, placeholder, ids) = true
    · have hn : (d.joins.isAnchor j || !d.joins.isJoined j || ids.isEmpty) = false := by
        simpa [isScoped, and_assoc] using h
      simp [scopeEntities, scopeEntity, hn, ih, List.filter_cons_of_pos h, bindIds]
    · have hn : (d.joins.isAnchor j || !d.joins.isJoined j || ids.isEmpty) = true := by
        simpa [isScoped, or_assoc, or_iff_not_imp_left] using h
      simp [scopeEntities, scopeEntity, hn, ih, List.filter_cons_of_neg h]

/-- The entities that take a condition, once all else is joined. -/
def scopedEntities (s : Scope) (joins : Registry) : List (Join × String × List String) :=
  s.optionalEntities.filter (isScoped joins)

theorem compose_eq_ok {s : Scope} {d d' : Draft} {conditions : List Expr}
    (h : s.compose d = (d', .ok conditions)) :
    ∃ clauses, s.clauses = clauses.map .ok ∧
      d' = { d.meetAll clauses with
        bindings := bindIds (d.meetAll clauses).bindings (s.scopedEntities (d.meetAll clauses).joins) } ∧
      conditions = clauses.flatMap ScopeClause.conditions ++
        (s.scopedEntities (d.meetAll clauses).joins).map fun entity => optionalCondition entity.1 entity.2.1 := by
  cases hm : d.meetEach s.clauses with
  | mk d₁ result =>
    cases result with
    | error e => simp [compose, hm] at h
    | ok met =>
      obtain ⟨clauses, hs, rfl, rfl⟩ := Draft.meetEach_eq_ok hm
      simp only [compose, hm, scopeEntities_eq, Prod.mk.injEq, Except.ok.injEq] at h
      obtain ⟨rfl, rfl⟩ := h
      exact ⟨clauses, hs, rfl, rfl⟩

end Scope

/-- The names of tables in the innermost layer: that of its source, and those that the lines of its chain give. -/
def Plan.aliases (p : Plan) : List String := p.layers.source.introduced?.toList ++ Sql.aliases p.joins.lines

/-- What the steps of a compilation yielded, one after the other. -/
structure Compilation (c : Compiler) (r : Request) where
  pipeline : Pipeline
  shape : OutputShape
  stack : Option Expr
  runTerms : Terms
  runWarnings : List Warning
  progress : StageProgress
  clauses : List ScopeClause
  assembled : Pipeline.assemble r.pipeline r.query = .ok pipeline
  shaped : r.query.shape pipeline c.settings.defaultPageSize = .ok shape
  stacked : r.query.stackColumn pipeline.anchor = .ok stack
  ranOver : (c.scope r pipeline).runTerms = .ok (runTerms, runWarnings)
  added : pipeline.stages.zipIdx.foldlM
    (StageProgress.addStage pipeline.lastJobRun? runTerms.conditions)
    ⟨(Draft.empty (c.joinContext r.query pipeline.anchor)).meet
      (⟨Compiler.firstRequests r.query pipeline.anchor, []⟩ ++ (pipeline.start.clause pipeline.anchor).demand ++
        ⟨[], runTerms.bindings⟩), none, [], []⟩ = .ok progress
  posed : (c.scope r pipeline).clauses = clauses.map .ok

namespace Compilation

variable {c : Compiler} {r : Request} (k : Compilation c r)

def start : StartClause := k.pipeline.start.clause k.pipeline.anchor

def context : JoinContext := c.joinContext r.query k.pipeline.anchor

def scope : Scope := c.scope r k.pipeline

def first : StageProgress where
  draft := (Draft.empty k.context).meet
    (⟨Compiler.firstRequests r.query k.pipeline.anchor, []⟩ ++ k.start.demand ++ ⟨[], k.runTerms.bindings⟩)
  previousCi := none
  columns := []
  predicates := []

/-- What a stage's clause depends on, given the CI stage before it. -/
def eventContext (previousCi : Option Nat) : EventContext :=
  ⟨k.context, k.pipeline.lastJobRun?, k.runTerms.conditions, previousCi⟩

/-- All joins, and what is bound before joined entities are scoped. -/
def met : Draft := k.progress.draft.meetAll k.clauses

def scopedEntities : List (Join × String × List String) := k.scope.scopedEntities k.met.joins

def bindings : Bindings := Scope.bindIds k.met.bindings k.scopedEntities

/-- The conditions on whole rows, without those of the stages. -/
def conditions : List Expr :=
  k.clauses.flatMap ScopeClause.conditions ++
    k.scopedEntities.map fun entity => Scope.optionalCondition entity.1 entity.2.1

def plan : Plan where
  pipeline := k.pipeline
  shape := k.shape
  layers :=
    { anchor := k.pipeline.anchor
      source := k.pipeline.anchor.source c.settings.schema
      chain := k.met.joins.tokens
      conditions := k.conditions ++ k.progress.predicates
      start := k.start.expression
      stages := k.progress.columns
      trend := r.query.across = .trend
      stack := k.stack
      formula := .ofQuery r.query }
  joins := k.met.joins
  bindings := k.bindings
  warnings := r.query.orderWarnings k.pipeline ++ k.runWarnings

theorem of_plan {p : Plan} (h : c.plan r = .ok p) : ∃ k : Compilation c r, k.plan = p := by
  simp only [Compiler.plan, Except.bind_eq_ok] at h
  obtain ⟨pipeline, hp, shape, hs, stack, hst, runs, hr, progress, hpr, conditions, hc, hplan⟩ := h
  cases hd : (c.scope r pipeline).compose progress.draft with
  | mk draft composed =>
    rw [hd] at hc hplan
    subst hc
    cases hplan
    obtain ⟨clauses, hcl, rfl, rfl⟩ := Scope.compose_eq_ok hd
    exact ⟨⟨pipeline, shape, stack, runs.1, runs.2, progress, clauses, hp, hs, hst, hr, hpr, hcl⟩, rfl⟩

theorem plan_eq_ok : c.plan r = .ok k.plan := by
  have hcompose : (c.scope r k.pipeline).compose k.progress.draft = (⟨k.met.joins, k.bindings⟩, .ok k.conditions) := by
    simp only [Scope.compose, k.posed, Draft.meetEach_map_ok, Scope.scopeEntities_eq]
    rfl
  simp only [Compiler.plan, Except.bind_eq_ok]
  refine ⟨k.pipeline, k.assembled, k.shape, k.shaped, k.stack, k.stacked, (k.runTerms, k.runWarnings), k.ranOver,
    k.progress, k.added, k.conditions, ?_, ?_⟩ <;> rw [hcompose]
  rfl

theorem of_compile {q : CompiledQuery} (h : c.compile r = .ok q) :
    ∃ k : Compilation c r, k.plan.query = q := by
  obtain ⟨p, hp, rfl⟩ := Except.map_eq_ok.1 h
  obtain ⟨k, rfl⟩ := of_plan hp
  exact ⟨k, rfl⟩

/-- What holds before the first stage, and is kept by each stage that is added, holds after the last. -/
theorem induction {P : Nat → StageProgress → Prop} (first : P 0 k.first)
    (step : ∀ i s stage event clause, k.pipeline.stages[i]? = some stage →
      StageEvent.ofStage stage = .ok event →
      event.clause (k.eventContext s.previousCi) stage.name i = .ok clause →
      s.draft.joins.context = k.context → P i s → P (i + 1) (s.add i event clause)) :
    P k.pipeline.stages.length k.progress := by
  have hall : P (0 + k.pipeline.stages.zipIdx.length) k.progress ∧
      k.progress.draft.joins.context = k.context := by
    refine foldlM_induction
      (P := fun n s => P n s ∧ s.draft.joins.context = k.context) k.added ⟨first, ?_⟩ ?_
    · exact Draft.context_meet _ _
    · rintro i ⟨stage, index⟩ s s' hi hf ⟨hp, hc⟩
      obtain ⟨event, clause, he, hcl, rfl⟩ := StageProgress.addStage_eq_ok.1 hf
      simp only [List.getElem?_zipIdx, Option.map_eq_some_iff, Prod.mk.injEq, Nat.zero_add] at hi
      obtain ⟨stage', hst, rfl, rfl⟩ := hi
      rw [hc] at hcl
      rw [Nat.zero_add] at hp ⊢
      exact ⟨step i s stage' event clause hst he hcl hc hp, (Draft.context_meet _ _).trans hc⟩
  simpa using hall.1

end Compilation

theorem StageEvent.kind_ofStage {s : Stage} {e : StageEvent} (h : StageEvent.ofStage s = .ok e) :
    s.kind? = some e.kind := by
  unfold ofStage at h
  split at h <;> rename_i hk <;> rw [hk]
  · cases h
  all_goals first
    | (cases h; rfl)
    | (obtain ⟨_, -, rfl⟩ := Except.map_eq_ok.1 h; rfl)

theorem Query.stackColumn_eq_ok {q : Query} {a : Anchor} {stack : Option Expr} (h : q.stackColumn a = .ok stack) :
    stack = none ∨ a.hasIssues = true ∧ ∃ kind : StackKind,
      stack = some (if kind.isArray then .call "UNNEST" (.column "im" (kind.column a.issueSystem))
        else .column "im" (kind.column a.issueSystem)) := by
  unfold stackColumn at h
  split at h
  · cases h
    exact Or.inl rfl
  · split at h
    · cases h
    · rename_i kind _
      split at h
      · cases h
      · rename_i hi
        cases h
        exact Or.inr ⟨by simpa using hi, kind, rfl⟩

theorem Pipeline.lastJobRun?_eq_some {p : Pipeline} {i : Nat} (h : p.lastJobRun? = some i) :
    ∃ stage, p.stages[i]? = some stage ∧ isJobRunStage stage = true := by
  simp only [lastJobRun?, Option.map_eq_some_iff] at h
  obtain ⟨⟨stage, j⟩, hl, rfl⟩ := h
  obtain ⟨hm, hj⟩ := List.mem_filter.1 (List.mem_of_getLast? hl)
  exact ⟨stage, by simpa [List.mem_zipIdx_iff_getElem?] using hm, hj⟩

theorem Compiler.exists_compile_eq_ok {c : Compiler} {r : Request} (h : (c.plan r).isOk = true) :
    ∃ q, c.compile r = .ok q := by
  cases hp : c.plan r with
  | error e => simp [hp, Except.isOk, Except.toBool] at h
  | ok p => exact ⟨p.query, by rw [compile, hp]; rfl⟩

namespace Request

def stageOf (name : String) (kind : EventKind) (values : List String) : Stage :=
  .new name 0 ((Event.ofKind kind).withValues values)

/-- Issues from an incident on: worked on, merged, built and deployed, with sprints, users and runs restricted. -/
def delivery : Request where
  pipeline :=
    { name := "delivery"
      description := ""
      preDevelopment := [stageOf "work" .statusReached ["DONE"]]
      fixed := [stageOf "merge" .prMerged []]
      postDevelopment := [stageOf "build" .ciJobRun ["7"], stageOf "deploy" .cdJobRun []]
      startsAtCommit := false
      startsAtGenericEvent := true
      startingEventTypes := ["incident"] }
  query := .standard
  filters :=
    { issues := some ⟨["1"], ["active"], some true, true, .ofList [("exclude_project", ["A"])]⟩
      pullRequests := some ⟨["2"], false, .empty⟩
      commits := none
      jobRuns := some ⟨none, false, .ofList [("exclude_status", ["FAILED"])]⟩
      orgUnit := ⟨none, ["u"]⟩ }

theorem isOk_plan_delivery : ((⟨.standard, .criteria⟩ : Compiler).plan delivery).isOk = true := by cbv

end Request
end LeadTime
