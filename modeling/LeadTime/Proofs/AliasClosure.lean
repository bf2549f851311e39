import LeadTime.Proofs.QueryText
import Mathlib

/-! Every table that a query reads from is named by its FROM chain, and named once. What stages, clauses and the start
read from, they ask for; the registry keeps what was asked for in an order in which each line can be read. -/
namespace LeadTime

open Sql

/-- The innermost layer names every table that it reads from. -/
structure Plan.AliasClosed (p : Plan) : Prop where
  /-- The query is written with these items, lines and conditions. -/
  written : p.Written
  /-- The chain is written out of its lines. -/
  chain : p.layers.chain = separated "\n" (p.joins.lines.map JoinLine.tokens)
  /-- No name is given twice. -/
  distinct : p.aliases.Nodup
  /-- A line reads from the source, from itself, and from lines before it. -/
  lines : ClosedLines p.layers.source.introduced?.toList p.joins.lines
  /-- The start, the times of stages, the trend and the stack read from the chain. -/
  items : tables (selectList p.layers.baseItems) ⊆ p.aliases
  /-- The conditions on whole rows read from the chain. -/
  conditions : ∀ c ∈ p.layers.conditions, c.tables ⊆ p.aliases
  /-- A select that a line joins names all that it reads from itself. -/
  selects : ∀ l ∈ p.joins.lines, l.SourceClosed

theorem Anchor.tables_identity (a : Anchor) : ∀ column ∈ a.identity, column.1.tables ⊆ [a.tableAlias] := by
  obtain ⟨calculation, issueSystem⟩ := a
  cases calculation <;> cases issueSystem <;> simp [identity, tableAlias, isIssue]

theorem Anchor.tables_trend (a : Anchor) : a.trend.tables ⊆ [a.tableAlias] := by
  cases h : a.isIssue <;> simp [trend, tableAlias, h]

namespace Registry

def Reads (r : Registry) (e : Expr) : Prop := ∀ name ∈ e.tables, ∃ j, r.isJoined j = true ∧ name = j.tableAlias

theorem Reads.requestAll {r : Registry} {e : Expr} (h : r.Reads e) (reqs : List JoinRequest) :
    (r.requestAll reqs).Reads e := fun name hn =>
  (h name hn).imp fun _ hj => ⟨isJoined_requestAll hj.1, hj.2⟩

end Registry

namespace Compilation

variable {settings : CompilerSettings} {r : Request} (k : Compilation ⟨settings, .criteria⟩ r)

theorem closed_first : k.first.draft.joins.Closed := by
  rw [joins_first]
  exact (Registry.closed_empty _).requestAll k.closeAll_firstRequests

/-- The stages keep the registry closed, and their times and conditions read from joins that it holds. -/
theorem closed_progress : k.progress.draft.joins.Closed ∧
    (∀ column ∈ k.progress.columns, k.progress.draft.joins.Reads column.timestamp) ∧
      ∀ p ∈ k.progress.predicates, k.progress.draft.joins.Reads p := by
  refine (k.stages (P := fun _ s => s.draft.joins.Closed ∧
    (∀ column ∈ s.columns, s.draft.joins.Reads column.timestamp) ∧ ∀ p ∈ s.predicates, s.draft.joins.Reads p)
    ⟨k.closed_first, by simp [first], by simp [first]⟩ ?_).1
  rintro n s stage event clause - - spec hready ⟨hclosed, hcolumns, hpredicates⟩
  have hreads : ∀ e ∈ clause.timestamp :: clause.predicates,
      (s.draft.joins.requestAll clause.demand.requests).Reads e := fun e he name hn =>
    (spec.reads e he name hn).imp fun _ hj => ⟨Registry.isJoined_of_asks hj.1, hj.2⟩
  rw [List.forall_mem_cons] at hreads
  refine ⟨hclosed.requestAll (spec.closes k.fit_runTerms.2 _ hready), fun column hc => ?_, fun p hp => ?_⟩
  · rcases List.mem_append.1 hc with hc | hc
    · exact (hcolumns column hc).requestAll _
    · rw [List.mem_singleton.1 hc]
      exact hreads.1
  · rcases List.mem_append.1 hp with hp | hp
    · exact (hpredicates p hp).requestAll _
    · exact hreads.2 p hp

theorem closed_met : k.met.joins.Closed := by
  rw [joins_met]
  exact k.closed_progress.1.requestAll (Scope.closeAll_requests k.posed)

theorem isJoined_anchor_met : k.met.joins.isJoined k.pipeline.anchor.join = true := by
  have h : k.met.joins.context.anchor = k.pipeline.anchor := by rw [context_met]; rfl
  rw [← h]
  exact Registry.isJoined_anchor

theorem reads_start : k.met.joins.Reads k.start.expression := fun name hn => by
  obtain ⟨j, rfl, h⟩ := k.spec_start.reads name hn
  refine ⟨j, ?_, rfl⟩
  rcases h with rfl | h
  · exact k.isJoined_anchor_met
  · refine k.isJoined_met (k.isJoined_progress ?_)
    rw [joins_first]
    exact Registry.isJoined_of_mem_held (List.mem_append_right _ h)

theorem reads_stack : ∀ e ∈ k.stack, k.met.joins.Reads e := by
  rcases Query.stackColumn_eq_ok k.stacked with h | ⟨hi, kind, h⟩ <;> rw [h]
  · simp
  · intro e he name hn
    refine ⟨.issue, k.isJoined_issue hi, ?_⟩
    rw [← Option.some.inj he] at hn
    cases hk : kind.isArray <;> simpa [hk, Join.tableAlias] using hn

theorem reads_conditions : ∀ c ∈ k.conditions, k.met.joins.Reads c := by
  intro c hc name hn
  rcases List.mem_append.1 hc with hc | hc
  · obtain ⟨clause, hm, hc⟩ := List.mem_flatMap.1 hc
    obtain ⟨j, rfl, h⟩ := (k.spec_clauses hm).reads c hc name hn
    refine ⟨j, ?_, rfl⟩
    rcases h with rfl | h | ⟨i, hi, rfl⟩
    · exact k.isJoined_anchor_met
    · rw [joins_met]
      exact Registry.isJoined_of_mem_held (List.mem_flatMap.2 ⟨clause, hm, h⟩)
    · exact k.isJoined_met (k.isJoined_lastJobRun hi)
  · obtain ⟨entity, he, rfl⟩ := List.mem_map.1 hc
    have hs := (List.mem_filter.1 he).2
    simp only [Scope.isScoped, Bool.and_eq_true] at hs
    exact ⟨entity.1, hs.1.2, by simpa [Scope.optionalCondition] using hn⟩

theorem tables_subset {e : Expr} (h : k.met.joins.Reads e) : e.tables ⊆ k.plan.aliases := by
  intro name hn
  obtain ⟨j, hj, rfl⟩ := h name hn
  rw [aliases_plan]
  exact k.closed_met.mem_aliases hj

theorem tables_baseItems : tables (selectList k.plan.layers.baseItems) ⊆ k.plan.aliases := by
  have hanchor : k.pipeline.anchor.tableAlias ∈ k.plan.aliases := List.mem_append_left _ (by simp [introduced?_source])
  have hown {e : Expr} (h : e.tables ⊆ [k.pipeline.anchor.tableAlias]) : e.tables ⊆ k.plan.aliases := fun name hn => by
    rw [List.mem_singleton.1 (h hn)]
    exact hanchor
  have hitems : ∀ i ∈ k.plan.layers.baseItems, tables i.tokens ⊆ k.plan.aliases := by
    intro i hi
    simp only [Layers.baseItems, List.mem_append, List.mem_cons, List.mem_map, Option.mem_toList] at hi
    rcases hi with ((⟨column, hc, rfl⟩ | hi) | ⟨e, he, rfl⟩) | rfl | ⟨⟨column, stage⟩, hc, rfl⟩
    · simpa using hown (Anchor.tables_identity _ column hc)
    · split at hi
      · rw [List.mem_singleton.1 hi]
        have h : k.plan.layers.anchor.trend.tables ⊆ k.plan.aliases := hown (Anchor.tables_trend k.pipeline.anchor)
        simpa using h
      · simp at hi
    · simpa using k.tables_subset (k.reads_stack e he)
    · have h : k.plan.layers.start.tables ⊆ k.plan.aliases := k.tables_subset k.reads_start
      simpa using h
    · have hp := k.closed_progress.2.1 column (List.fst_mem_of_mem_zipIdx hc)
      have hm : k.met.joins.Reads column.timestamp := by
        rw [joins_met]
        exact hp.requestAll _
      simpa using k.tables_subset hm
  intro name hn
  simp only [View.of_selectList, List.mem_flatMap] at hn
  obtain ⟨i, hi, hn⟩ := hn
  exact hitems i hi hn

end Compilation

/-- Where compiling succeeds, the innermost layer of the query names every table that it reads from. -/
theorem Compiler.aliasClosed_of_compile {settings : CompilerSettings} {r : Request} {q : CompiledQuery}
    (h : (⟨settings, .criteria⟩ : Compiler).compile r = .ok q) :
    ∃ p, (⟨settings, .criteria⟩ : Compiler).plan r = .ok p ∧ p.query = q ∧ p.AliasClosed := by
  obtain ⟨p, hp, rfl⟩ := Except.map_eq_ok.1 h
  obtain ⟨k, rfl⟩ := Compilation.of_plan hp
  have hanchor : k.met.joins.context.anchor = k.pipeline.anchor := by rw [k.context_met]; rfl
  refine ⟨_, hp, rfl, {
    written := k.written_plan
    chain := k.closed_met.tokens_eq
    distinct := ?_
    lines := ?_
    items := k.tables_baseItems
    conditions := ?_
    selects := k.closed_met.sourceClosed }⟩
  · rw [k.aliases_plan]
    exact k.closed_met.nodup_aliases
  · rw [k.introduced?_source, ← hanchor]
    exact k.closed_met.closedLines
  · intro c hc
    rcases List.mem_append.1 hc with hc | hc
    · exact k.tables_subset (k.reads_conditions c hc)
    · refine k.tables_subset ?_
      rw [k.joins_met]
      exact (k.closed_progress.2.2 c hc).requestAll _

theorem Compiler.aliasClosed_delivery : ∃ q, (⟨.standard, .criteria⟩ : Compiler).compile .delivery = .ok q ∧
    ∃ p, (⟨.standard, .criteria⟩ : Compiler).plan .delivery = .ok p ∧ p.query = q ∧ p.AliasClosed := by
  obtain ⟨q, hq⟩ := exists_compile_eq_ok Request.isOk_plan_delivery
  exact ⟨q, hq, aliasClosed_of_compile hq⟩

end LeadTime
