import LeadTime.Proofs.Layers
import LeadTime.Proofs.Stages
import Mathlib

/-! Every placeholder of a query is bound, and every binding is used. Each stage, and each clause on whole rows, binds the
placeholders that it writes; the predicates on job runs are bound before the first stage and written by the last
stage of job runs; and the integrations that sprints write are bound by the scoping of the issues. -/
namespace LeadTime

open Sql

def StageProgress.written (s : StageProgress) : List String :=
  s.draft.joins.placeholders ++ s.columns.flatMap (·.timestamp.placeholders) ++
    s.predicates.flatMap Expr.placeholders

namespace Compilation

variable {settings : CompilerSettings} {r : Request} (k : Compilation ⟨settings, .criteria⟩ r)

theorem balanced_runTerms (hfree : r.filters.UnitNamesFree) :
    (∀ name, name ∈ k.runTerms.placeholders ↔ name ∈ k.runTerms.names) ∧
      (k.runTerms.names ≠ [] → ∃ i, k.pipeline.lastJobRun? = some i) := by
  rcases Scope.runTerms_eq_ok k.ranOver with h | ⟨hlast, f, res, hf, hr, h⟩
  · rw [h]
    simp [Terms.placeholders, Terms.names]
  · have balanced : res.Balanced := Restriction.balanced_ofCriteria (hfree.jobRuns f hf) hr
    rw [h]
    exact ⟨balanced, fun _ => hlast⟩

section Stages

variable {s : StageProgress} {i : Nat} {event : StageEvent} {clause : StageClause} {name : String}

theorem mem_written_add (hr : s.draft.joins.LandAll clause.demand.requests) :
    name ∈ (s.add i event clause).written ↔ name ∈ s.written ∨ name ∈ clause.placeholders := by
  have h := Registry.mem_placeholders_requestAll name hr
  have hrequests : name ∈ clause.demand.requests.flatMap JoinRequest.placeholders ↔
      ∃ req ∈ clause.demand.requests, name ∈ req.placeholders := List.mem_flatMap
  rw [← hrequests] at h
  simp only [StageProgress.written, StageProgress.add, Draft.meet, StageClause.placeholders, List.mem_append,
    List.flatMap_append, List.flatMap_singleton, h]
  tauto

theorem mem_keys_add : name ∈ (s.add i event clause).draft.bindings.keys ↔
    name ∈ s.draft.bindings.keys ∨ name ∈ clause.names := KeyMap.mem_keys_insertAll

end Stages

/-- What is bound before the first stage is written by then, or is of the predicates on job runs. -/
theorem mem_keys_first {name : String} : name ∈ k.first.draft.bindings.keys ↔
    name ∈ k.first.written ∨ name ∈ k.runTerms.names := by
  have hplaceholders : name ∈ k.first.written ↔ name ∈ k.start.demand.bindings.map Prod.fst := by
    have hheld : ∀ req ∈ Compiler.firstRequests r.query k.pipeline.anchor, req.placeholders = [] := by
      simp only [Compiler.firstRequests]
      split <;> split <;> simp [JoinRequest.placeholders]
    have hempty : (Registry.empty k.context).placeholders = [] := rfl
    have hw : k.first.written = k.first.draft.joins.placeholders := by
      simp [StageProgress.written, first]
    rw [hw, joins_first, Registry.mem_placeholders_requestAll _ k.landAll_firstRequests, hempty, ← k.spec_start.written]
    simp only [List.not_mem_nil, false_or, List.mem_flatMap]
    constructor
    · rintro ⟨req, hr, hn⟩
      rcases List.mem_append.1 hr with hr | hr
      · rw [hheld req hr] at hn
        cases hn
      · exact ⟨req, hr, hn⟩
    · rintro ⟨req, hr, hn⟩
      exact ⟨req, List.mem_append_right _ hr, hn⟩
  rw [bindings_first, KeyMap.mem_keys_insertAll, List.map_append, List.mem_append, hplaceholders]
  simp [Terms.names]

/-- Stages bind what they write; the predicates on job runs are written once their stage is added. -/
theorem mem_keys_progress (hfree : r.filters.UnitNamesFree) {name : String} :
    name ∈ k.progress.draft.bindings.keys ↔ name ∈ k.progress.written := by
  obtain ⟨hruns, hlast⟩ := k.balanced_runTerms hfree
  have hpredicates (ci : Option Nat) (n : Nat) (name : String) :
      name ∈ (StageEvent.Clause.runPredicates (k.eventContext ci) n).placeholders ↔
        k.pipeline.lastJobRun? = some n ∧ name ∈ k.runTerms.names := by
    rw [← hruns]
    by_cases h : k.pipeline.lastJobRun? = some n <;>
      simp [StageEvent.Clause.runPredicates, Terms.placeholders, eventContext, h]
  have key := (k.stages
    (P := fun n s => (∀ name, name ∈ s.draft.bindings.keys ↔ name ∈ s.written ∨ name ∈ k.runTerms.names) ∧
      ∀ i, k.pipeline.lastJobRun? = some i → i < n → ∀ name ∈ k.runTerms.names, name ∈ s.written)
    ⟨fun name => k.mem_keys_first, by simp⟩ ?_).1
  · obtain ⟨hkeys, hwritten⟩ := key
    rw [hkeys]
    refine ⟨fun h => h.elim id fun hn => ?_, Or.inl⟩
    obtain ⟨i, hi⟩ := hlast (List.ne_nil_of_mem hn)
    obtain ⟨stage, hst, -⟩ := Pipeline.lastJobRun?_eq_some hi
    exact hwritten i hi (List.getElem?_eq_some_iff.1 hst).1 name hn
  · rintro n s stage event clause hst hk spec hready ⟨hkeys, hwritten⟩
    have hland := spec.lands _ hready
    have regroup (w n runs x y : Prop) : (w ∨ runs) ∨ n ↔ (w ∨ n ∨ x ∧ y ∧ runs) ∨ runs := by
      clear * -
      tauto
    refine ⟨fun name => ?_, fun i hi hn name hname => ?_⟩
    · rw [mem_keys_add, mem_written_add hland, hkeys, spec.written, hpredicates]
      exact regroup _ _ _ _ _
    · rw [mem_written_add hland, spec.written, hpredicates]
      rcases Nat.lt_succ_iff_lt_or_eq.1 hn with hn | rfl
      · exact Or.inl (hwritten i hi hn name hname)
      · obtain ⟨last, hl, hrun⟩ := Pipeline.lastJobRun?_eq_some hi
        rw [hl] at hst
        cases hst
        exact Or.inr (Or.inr ⟨by simpa [Pipeline.isJobRunStage, hk] using hrun, hi, hname⟩)

/-- Each clause on whole rows binds what it writes, but for the one of sprints. -/
theorem balanced_clauses (hfree : r.filters.UnitNamesFree) {clause : ScopeClause} (h : clause ∈ k.clauses) :
    (k.pipeline.anchor.hasIssues = true ∧ ∃ states, clause = k.scope.sprintsOf states) ∨ clause.Balanced := by
  rcases Scope.cases_of_mem k.posed h with rfl | ⟨j, u, res, hr, rfl⟩ | h
  · exact Or.inr Scope.balanced_anchorPart
  · exact Or.inr (Scope.balanced_entityPart (hr.balanced rfl hfree) j u)
  · exact h.balanced

theorem anchorPart_mem_clauses : k.scope.anchorPart ∈ k.clauses := by
  obtain ⟨entities, stack, -, -, -, hc⟩ := Scope.clauses_eq_ok k.posed
  rw [hc]
  exact List.mem_append_left _ List.mem_cons_self

theorem mem_keys_bindings {name : String} : name ∈ k.bindings.keys ↔
    (name ∈ k.progress.draft.bindings.keys ∨ ∃ clause ∈ k.clauses, name ∈ clause.names) ∨
      ∃ entity ∈ k.scopedEntities, name = entity.2.1 := by
  have hnames : name ∈ (k.clauses.flatMap (·.demand.bindings)).map Prod.fst ↔
      ∃ clause ∈ k.clauses, name ∈ clause.names := by
    rw [List.map_flatMap, List.mem_flatMap]
    rfl
  rw [bindings, Scope.mem_keys_bindIds, met, Draft.bindings_meetAll, KeyMap.mem_keys_insertAll, hnames]

theorem issueIntegrationIds_mem_keys (hids : r.filters.issueIds ≠ []) (hi : k.pipeline.anchor.hasIssues = true) :
    Placeholder.issueIntegrationIds ∈ k.bindings.keys := by
  rw [mem_keys_bindings]
  cases ha : k.pipeline.anchor.isIssue with
  | true =>
    have hp : k.scope.anchorPlaceholder = Placeholder.issueIntegrationIds := if_pos ha
    exact Or.inl (Or.inr ⟨_, k.anchorPart_mem_clauses, List.mem_singleton.2 hp.symm⟩)
  | false =>
    refine Or.inr ⟨(.issue, Placeholder.issueIntegrationIds, r.filters.issueIds), ?_, rfl⟩
    have hanchor : k.met.joins.isAnchor .issue = false := by
      rw [Bool.eq_false_iff, Ne, Registry.isAnchor_iff, context_met]
      simp [context, Compiler.joinContext, Anchor.join, ha]
    refine List.mem_filter.2 ⟨List.mem_cons_self, ?_⟩
    simp [Scope.isScoped, hanchor, k.isJoined_issue hi, hids]

theorem mem_placeholders_conditions {name : String} : name ∈ k.conditions.flatMap Expr.placeholders ↔
    (∃ clause ∈ k.clauses, name ∈ clause.conditions.flatMap Expr.placeholders) ∨
      ∃ entity ∈ k.scopedEntities, name = entity.2.1 := by
  rw [conditions, List.flatMap_append, List.mem_append, List.flatMap_assoc, List.mem_flatMap]
  simp [List.mem_flatMap, Scope.optionalCondition]

theorem plain_stack : ∀ e ∈ k.stack, e.Legible ∧ e.placeholders = [] := by
  rcases Query.stackColumn_eq_ok k.stacked with h | ⟨-, kind, h⟩ <;> rw [h]
  · simp
  · have hc := Scope.noColon_stackColumn kind k.pipeline.anchor.issueSystem
    cases hk : kind.isArray <;> simp +decide [hc]

theorem mem_placeholders_plan {name : String} : name ∈ placeholders k.plan.layers.base ↔
    (name ∈ k.progress.written ∨ ∃ clause ∈ k.clauses, name ∈ clause.placeholders) ∨
      ∃ entity ∈ k.scopedEntities, name = entity.2.1 := by
  have hland := Scope.landAll_requests k.posed k.ready.sprint
  have hjoins := Registry.mem_placeholders_requestAll name hland
  rw [← k.joins_met] at hjoins
  have hrequests : (∃ req ∈ k.clauses.flatMap (·.demand.requests), name ∈ req.placeholders) ↔
      ∃ clause ∈ k.clauses, name ∈ clause.demand.requests.flatMap JoinRequest.placeholders := by
    simp only [List.mem_flatMap]
    exact ⟨fun ⟨req, ⟨c, hc, hr⟩, hn⟩ => ⟨c, hc, req, hr, hn⟩, fun ⟨c, hc, req, hr, hn⟩ => ⟨req, ⟨c, hc, hr⟩, hn⟩⟩
  have hclauses : (∃ clause ∈ k.clauses, name ∈ clause.placeholders) ↔
      (∃ clause ∈ k.clauses, name ∈ clause.conditions.flatMap Expr.placeholders) ∨
        ∃ clause ∈ k.clauses, name ∈ clause.demand.requests.flatMap JoinRequest.placeholders := by
    simp only [ScopeClause.placeholders, List.mem_append, and_or_left, exists_or]
  have regroup (times joins asked terms entities predicates : Prop) :
      times ∨ (joins ∨ asked) ∨ (terms ∨ entities) ∨ predicates ↔
        (((joins ∨ times) ∨ predicates) ∨ terms ∨ asked) ∨ entities := by
    clear * -
    tauto
  rw [Layers.mem_placeholders_base k.spec_start.expression fun e he => (k.plain_stack e he).2]
  have hchain : name ∈ placeholders k.plan.layers.chain ↔ name ∈ k.met.joins.placeholders :=
    Registry.mem_placeholders_tokens _ _
  have hconditions : name ∈ k.plan.layers.conditions.flatMap Expr.placeholders ↔
      name ∈ k.conditions.flatMap Expr.placeholders ∨ name ∈ k.progress.predicates.flatMap Expr.placeholders := by
    rw [← List.mem_append, ← List.flatMap_append]
    rfl
  rw [hchain, hconditions, hjoins, hrequests, mem_placeholders_conditions, hclauses, StageProgress.written,
    List.mem_append, List.mem_append]
  exact regroup _ _ _ _ _ _

theorem mem_placeholders_iff_mem_keys (hfree : r.filters.UnitNamesFree) {name : String} :
    name ∈ placeholders k.plan.layers.base ↔ name ∈ k.bindings.keys := by
  rw [mem_placeholders_plan, ← k.mem_keys_progress hfree]
  constructor
  · rintro ((hn | ⟨clause, hc, hn⟩) | hn)
    · exact k.mem_keys_bindings.2 (Or.inl (Or.inl hn))
    · rcases k.balanced_clauses hfree hc with ⟨hi, states, rfl⟩ | hb
      · rcases Scope.mem_placeholders_sprintsOf.1 hn with hn | ⟨rfl, hids⟩
        · exact k.mem_keys_bindings.2 (Or.inl (Or.inr ⟨_, hc, hn⟩))
        · exact k.issueIntegrationIds_mem_keys hids hi
      · exact k.mem_keys_bindings.2 (Or.inl (Or.inr ⟨clause, hc, (hb name).1 hn⟩))
    · exact k.mem_keys_bindings.2 (Or.inr hn)
  · intro hn
    rcases k.mem_keys_bindings.1 hn with (hn | ⟨clause, hc, hn⟩) | hn
    · exact Or.inl (Or.inl hn)
    · refine Or.inl (Or.inr ⟨clause, hc, ?_⟩)
      rcases k.balanced_clauses hfree hc with ⟨-, states, rfl⟩ | hb
      · exact Scope.mem_placeholders_sprintsOf.2 (Or.inl hn)
      · exact (hb name).2 hn
    · exact Or.inr hn

section Legibility

variable (hs : NoColon settings.schema)
include hs

theorem legible_progress : k.progress.draft.joins.Legible ∧
    (∀ column ∈ k.progress.columns, column.timestamp.Legible) ∧ ∀ p ∈ k.progress.predicates, p.Legible := by
  refine (k.stages (P := fun _ s => s.draft.joins.Legible ∧
    (∀ column ∈ s.columns, column.timestamp.Legible) ∧ ∀ p ∈ s.predicates, p.Legible) ⟨?_, ?_, ?_⟩ ?_).1
  · have hheld : ∀ req ∈ k.firstRequests, req.Legible := by
      intro req hr
      rcases k.mem_firstRequests_cases hr with rfl | rfl | hr
      · trivial
      · trivial
      · exact k.spec_start.legible.2 req hr
    rw [joins_first]
    exact Registry.Legible.requestAll (r := Registry.empty k.context) hs (by simp [Registry.Legible, Registry.empty])
      hheld
  · simp [first]
  · simp [first]
  · rintro n s stage event clause - - spec hready ⟨hj, hc, hp⟩
    have hl := spec.legible hs k.fit_runTerms.1
    refine ⟨?_, ?_, ?_⟩
    · refine hj.requestAll ?_ hl.requests
      rw [hready.context]
      exact hs
    · intro column hm
      rcases List.mem_append.1 hm with hm | hm
      · exact hc column hm
      · rw [List.mem_singleton.1 hm]
        exact hl.timestamp
    · intro p hm
      rcases List.mem_append.1 hm with hm | hm
      · exact hp p hm
      · exact hl.predicates p hm

end Legibility

theorem legible_base (hs : NoColon settings.schema) : Legible k.plan.layers.base := by
  obtain ⟨hjoins, hcolumns, hpredicates⟩ := k.legible_progress hs
  have hmet : k.met.joins.Legible := by
    rw [joins_met]
    refine hjoins.requestAll ?_ (Scope.legible_requests hs k.posed)
    rw [context_progress]
    exact hs
  have hoptional : ∀ e ∈ k.scopedEntities, (Scope.optionalCondition e.1 e.2.1).Legible := by
    intro e he
    have hp : IsName e.2.1 := by
      have hm := (List.mem_filter.1 he).1
      simp only [Scope.optionalEntities, List.mem_cons, List.not_mem_nil, or_false] at hm
      have hissue : IsName Placeholder.issueIntegrationIds := by decide
      have hcode : IsName Placeholder.codeIntegrationIds := by decide
      rcases hm with rfl | rfl | rfl
      · exact hissue
      · exact hcode
      · exact hcode
    simp +decide [Scope.optionalCondition, Join.noColon_tableAlias, hp]
  have hconditions : ∀ c ∈ k.plan.layers.conditions, c.Legible := by
    intro c hc
    rcases List.mem_append.1 hc with hc | hc
    · rcases List.mem_append.1 hc with hc | hc
      · obtain ⟨clause, hm, hc⟩ := List.mem_flatMap.1 hc
        exact (k.spec_clauses hm).legible c hc
      · obtain ⟨e, he, rfl⟩ := List.mem_map.1 hc
        exact hoptional e he
    · exact hpredicates c hc
  have hsource : Legible k.plan.layers.source.tokens := by
    have htable : NoColon (if k.pipeline.anchor.isIssue then k.pipeline.anchor.issueSystem.table
        else "scm_pullrequests") := by
      split
      · exact JoinContext.noColon_table _
      · decide
    exact (Table.Legible.tokens ⟨hs, htable⟩).append (legible_as (Scope.noColon_anchor _)) (by simp; decide)
  exact Layers.legible_base hsource k.spec_start.legible.1 (fun e he => (k.plain_stack e he).1) hcolumns hmet.tokens
    hconditions

end Compilation

/-- Where compiling succeeds, the placeholders in the query's text are the names that are bound; so are those in the
text of the query that counts its rows. The schema's name must hold no colon, and no filter that takes the
unit's users may have a criterion by the name of their predicate. -/
theorem Compiler.mem_placeholdersIn_iff_mem_bindings {settings : CompilerSettings} {r : Request} {q : CompiledQuery}
    (hs : NoColon settings.schema) (hfree : r.filters.UnitNamesFree)
    (h : (⟨settings, .criteria⟩ : Compiler).compile r = .ok q) :
    (∀ name, name ∈ placeholdersIn q.sql ↔ name ∈ q.bindings.keys) ∧
      ∀ countSql ∈ q.countSql, ∀ name, name ∈ placeholdersIn countSql ↔ name ∈ q.bindings.keys := by
  obtain ⟨k, rfl⟩ := Compilation.of_compile h
  have hshape : k.shape.Plain := Query.plain_shape k.shaped
  have hlegible : Legible k.plan.layers.tokens := Layers.legible_tokens (k.legible_base hs)
  have hkeys (name : String) : name ∈ placeholders k.plan.layers.tokens ↔ name ∈ k.bindings.keys := by
    rw [Layers.placeholders_tokens, k.mem_placeholders_iff_mem_keys hfree]
  constructor
  · have hsql : placeholdersIn k.plan.query.sql = placeholders k.plan.layers.tokens :=
      (placeholdersIn_text (hshape.legible_tokens _ hlegible)).trans (hshape.placeholders_tokens _)
    rw [hsql]
    exact hkeys
  · intro countSql hc
    obtain ⟨tokens, ht, rfl⟩ := Option.map_eq_some_iff.1 hc
    rw [placeholdersIn_text (hshape.legible_countTokens _ hlegible ht), hshape.placeholders_countTokens _ ht]
    exact hkeys

theorem Request.unitNamesFree_delivery : delivery.filters.UnitNamesFree where
  issues i hi _ _ values hv := by
    cases hi
    have he : (KeyMap.ofList [("exclude_project", ["A"])]).entries = [("exclude_project", ["A"])] := rfl
    simp [he] at hv
  pullRequests p hp _ _ values hv := by
    cases hp
    simp [KeyMap.empty] at hv
  commits c hc := by cases hc
  jobRuns j hj hc := by
    cases hj
    cases hc

theorem Compiler.placeholders_of_delivery : ∃ q, (⟨.standard, .criteria⟩ : Compiler).compile .delivery = .ok q ∧
    (∀ name, name ∈ placeholdersIn q.sql ↔ name ∈ q.bindings.keys) ∧
      ∀ countSql ∈ q.countSql, ∀ name, name ∈ placeholdersIn countSql ↔ name ∈ q.bindings.keys := by
  obtain ⟨q, hq⟩ := exists_compile_eq_ok Request.isOk_plan_delivery
  exact ⟨q, hq, mem_placeholdersIn_iff_mem_bindings (by decide) Request.unitNamesFree_delivery hq⟩

end LeadTime
