import LeadTime.Proofs.Criteria
import LeadTime.Proofs.Registry.Closure
import LeadTime.Proofs.Registry.Placeholders
import LeadTime.Proofs.Terms
import LeadTime.Scope
import Mathlib

/-! The clauses on whole rows: what they ask for, bind, write and read. `Scope.clauses_eq_ok` says which clauses there
are where none fails, in their order, and `Scope.Own` which there are besides those of the anchor and of filters. -/
namespace LeadTime

open Sql

namespace ScopeClause

def placeholders (c : ScopeClause) : List String :=
  c.conditions.flatMap Expr.placeholders ++ c.demand.requests.flatMap JoinRequest.placeholders

def names (c : ScopeClause) : List String := c.demand.bindings.map Prod.fst

def Balanced (c : ScopeClause) : Prop := ∀ name, name ∈ c.placeholders ↔ name ∈ c.names

/-- What every clause on whole rows does: it reads back, and reads from the anchor, from joins that it asks for, and
from the runs of the last stage of job runs. -/
structure Spec (s : Scope) (c : ScopeClause) : Prop where
  legible : ∀ e ∈ c.conditions, e.Legible
  reads : ∀ e ∈ c.conditions, ∀ name ∈ e.tables, ∃ j : Join, name = j.tableAlias ∧
    (j = s.anchor.join ∨ .held j ∈ c.demand.requests ∨ ∃ i, s.lastJobRun = some i ∧ j = .jobRun i)

end ScopeClause

/-- No filter that takes the unit's users has a criterion by the name of their predicate. -/
structure EntityFilters.UnitNamesFree (f : EntityFilters) : Prop where
  issues : ∀ i ∈ f.issues, Restriction.UnitNameFree i.criteria i.orgUnitScoped f.orgUnit
  pullRequests : ∀ p ∈ f.pullRequests, Restriction.UnitNameFree p.criteria p.orgUnitScoped f.orgUnit
  commits : ∀ c ∈ f.commits, Restriction.UnitNameFree c.criteria c.orgUnitScoped f.orgUnit
  jobRuns : ∀ j ∈ f.jobRuns, Restriction.UnitNameFree j.criteria j.orgUnitScoped f.orgUnit

namespace Scope

variable {s : Scope}

def activePart (s : Scope) : ScopeClause := whenSome (s.issues.bind (·.isActive)) activeClause

def sprintPart (s : Scope) : ScopeClause := whenSome s.issues fun f => s.sprintClause f.sprintStates

def anchorIds (s : Scope) : List String := if s.anchor.isIssue then s.filters.issueIds else s.filters.codeIds

def anchorPlaceholder (s : Scope) : String :=
  if s.anchor.isIssue then Placeholder.issueIntegrationIds else Placeholder.codeIntegrationIds

def anchorPart (s : Scope) : ScopeClause :=
  ⟨[(Expr.column s.anchor.tableAlias "integration_id").among s.anchorPlaceholder],
    ⟨[], [(s.anchorPlaceholder, .textList s.anchorIds)]⟩⟩

theorem anchorClause_eq (s : Scope) : s.anchorClause =
    if s.anchorIds.isEmpty then .error (.missingIntegrationIds s.anchor.calculation) else .ok s.anchorPart := rfl

theorem anchorClause_eq_ok {c : ScopeClause} : s.anchorClause = .ok c ↔ s.anchorIds ≠ [] ∧ c = s.anchorPart := by
  rw [anchorClause_eq]
  by_cases he : s.anchorIds = []
  · simp [he]
  · simp [he, eq_comm (a := s.anchorPart)]

/-- The filter of an entity became this restriction; `unitCounts` says whether the filter takes the unit's users. -/
def Restricts (s : Scope) (j : Join) (unitCounts : Bool) (r : Restriction) : Prop :=
  (j = .issue ∧ ∃ f, s.issues = some f ∧ f.orgUnitScoped = unitCounts ∧
    s.rules.issues f Join.issue.tableAlias s.filters.orgUnit = .ok r) ∨
  (j = .pullRequest ∧ ∃ f, s.filters.pullRequests = some f ∧ f.orgUnitScoped = unitCounts ∧
    s.rules.pullRequests f Join.pullRequest.tableAlias s.filters.orgUnit = .ok r) ∨
  (j = .commit ∧ ∃ f, s.filters.commits = some f ∧ f.orgUnitScoped = unitCounts ∧
    s.rules.commits f Join.commit.tableAlias s.filters.orgUnit = .ok r)

def entityPart (s : Scope) (j : Join) (unitCounts : Bool) (r : Restriction) : ScopeClause where
  conditions :=
    if unitCounts && j ≠ s.anchor.join then
      r.predicates.values.map fun p => .anyOf [.isNull (.column j.tableAlias "id"), p]
    else r.predicates.values
  demand := ⟨[.held j], r.bindings.entries⟩

theorem entityClause_eq_ok {j : Join} {unitCounts : Bool} {restriction : Except String Restriction}
    {c : ScopeClause} (h : s.entityClause j unitCounts restriction = .ok c) :
    ∃ r, restriction = .ok r ∧ (c = nothing ∨ r.isEmpty = false ∧ c = s.entityPart j unitCounts r) := by
  cases restriction with
  | error reason => cases h
  | ok r =>
    refine ⟨r, rfl, ?_⟩
    simp only [entityClause] at h
    split at h
    · cases h
      exact Or.inl rfl
    · rename_i he
      cases h
      exact Or.inr ⟨by simpa using he, rfl⟩

theorem mem_entityClauses {c : ScopeClause} (h : .ok c ∈ s.entityClauses) :
    c = nothing ∨ ∃ j unitCounts r, s.Restricts j unitCounts r ∧ r.isEmpty = false ∧
      c = s.entityPart j unitCounts r := by
  simp only [entityClauses, List.mem_append, List.mem_map, Option.mem_toList] at h
  rcases h with (⟨f, hf, h⟩ | ⟨f, hf, h⟩) | ⟨f, hf, h⟩
  · obtain ⟨r, hr, hc⟩ := entityClause_eq_ok h
    exact hc.imp_right fun hc => ⟨_, _, r, Or.inl ⟨rfl, f, hf, rfl, hr⟩, hc⟩
  · obtain ⟨r, hr, hc⟩ := entityClause_eq_ok h
    exact hc.imp_right fun hc => ⟨_, _, r, Or.inr (Or.inl ⟨rfl, f, hf, rfl, hr⟩), hc⟩
  · obtain ⟨r, hr, hc⟩ := entityClause_eq_ok h
    exact hc.imp_right fun hc => ⟨_, _, r, Or.inr (Or.inr ⟨rfl, f, hf, rfl, hr⟩), hc⟩

def stackPart (s : Scope) (stack : StackKind) : ScopeClause where
  conditions :=
    [if stack.isArray then
        .binary .overlaps (.column "im" (stack.column s.anchor.issueSystem)) (.placeholder Placeholder.stackValues)
      else (Expr.column "im" (stack.column s.anchor.issueSystem)).among Placeholder.stackValues]
  demand := ⟨[.held .issue], [(Placeholder.stackValues, .textList s.query.stackValues)]⟩

theorem stackClause_eq_ok {c : ScopeClause} (h : s.stackClause = .ok c) :
    c = nothing ∨ ∃ stack, c = s.stackPart stack := by
  simp only [stackClause] at h
  split at h
  · cases h
    exact Or.inl rfl
  · rename_i stack _
    split at h
    · cases h
      exact Or.inl rfl
    · split at h
      · cases h
      · cases h
        exact Or.inr ⟨stack, rfl⟩

/-- The clauses besides those of the anchor and of filters, given that of the stacked dimension. -/
def ownClauses (s : Scope) (stack : ScopeClause) : List ScopeClause :=
  [s.activePart, s.sprintPart, stack, s.trendClause] ++ s.endTimeClauses

theorem clauses_eq_ok {clauses : List ScopeClause} (h : s.clauses = clauses.map .ok) :
    ∃ entities stack, s.anchorIds ≠ [] ∧ s.entityClauses = entities.map .ok ∧ s.stackClause = .ok stack ∧
      clauses = s.anchorPart :: entities ++ s.ownClauses stack := by
  rw [Scope.clauses, List.cons_append, List.cons_append, eq_comm, List.map_eq_cons_iff] at h
  obtain ⟨anchor, rest, rfl, ha, h⟩ := h
  rw [List.map_eq_append_iff] at h
  obtain ⟨front, ends, rfl, hf, he⟩ := h
  rw [List.map_eq_append_iff] at hf
  obtain ⟨entities, last, rfl, hen, hl⟩ := hf
  simp only [List.map_eq_cons_iff, List.map_eq_nil_iff, Except.ok.injEq] at hl
  obtain ⟨active, _, rfl, rfl, sprint, _, rfl, rfl, stack, _, rfl, hs, trend, _, rfl, rfl, rfl⟩ := hl
  obtain ⟨hids, rfl⟩ := anchorClause_eq_ok.1 ha.symm
  have hends : ends = s.endTimeClauses := List.map_injective_iff.2 (fun _ _ h => Except.ok.inj h) he
  exact ⟨entities, stack, hids, hen.symm, hs.symm, by
    rw [hends, List.append_assoc]
    rfl⟩

theorem issues_eq_some {f : IssueFilter} (h : s.issues = some f) :
    s.anchor.hasIssues = true ∧ s.filters.issues = some f := by
  simpa [issues] using h

def sprintsOf (s : Scope) (states : List String) : ScopeClause :=
  ⟨[], ⟨[.supplied .sprint s.sprintLine], [(Placeholder.sprintStates, .textList states)]⟩⟩

theorem sprintPart_cases (s : Scope) :
    s.sprintPart = nothing ∨ s.anchor.hasIssues = true ∧ ∃ states, s.sprintPart = s.sprintsOf states := by
  unfold sprintPart
  cases h : s.issues with
  | none => exact Or.inl rfl
  | some f =>
    simp only [whenSome, sprintClause]
    split
    · exact Or.inl rfl
    · exact Or.inr ⟨(issues_eq_some h).1, f.sprintStates, rfl⟩

def trendPart (s : Scope) : ScopeClause :=
  ⟨[s.anchor.trend.among Placeholder.trendKeys], ⟨[], [(Placeholder.trendKeys, .intList s.query.trendKeys)]⟩⟩

/-- A clause that is posed besides those of the anchor and of filters. -/
inductive Own (s : Scope) : ScopeClause → Prop where
  | nothing : s.Own nothing
  | active (value : Bool) : s.Own (activeClause value)
  | sprints (states : List String) (issues : s.anchor.hasIssues = true) : s.Own (s.sprintsOf states)
  | stack (kind : StackKind) : s.Own (s.stackPart kind)
  | trend : s.Own s.trendPart
  | ended {stage : Nat} {placeholder : String} (operator : Operator) (instant : Instant)
      (last : s.lastJobRun = some stage) (named : Placeholder.OfStage placeholder) :
      s.Own (endBound stage operator placeholder instant)

theorem own_of_mem {c stack : ScopeClause} (hs : s.stackClause = .ok stack)
    (h : c ∈ s.ownClauses stack) : s.Own c := by
  simp only [ownClauses, List.mem_append, List.mem_cons, List.not_mem_nil, or_false] at h
  rcases h with (rfl | rfl | rfl | rfl) | h
  · unfold activePart
    cases s.issues.bind (·.isActive) with
    | none => exact .nothing
    | some value => exact .active value
  · rcases s.sprintPart_cases with h | ⟨hi, states, h⟩ <;> rw [h]
    · exact .nothing
    · exact .sprints states hi
  · rcases stackClause_eq_ok hs with rfl | ⟨kind, rfl⟩
    · exact .nothing
    · exact .stack kind
  · unfold trendClause
    split
    · exact .nothing
    · exact .trend
  · simp only [endTimeClauses] at h
    split at h
    · rename_i stage range hl _
      rcases List.mem_pair.1 h with rfl | rfl
      · cases range.start with
        | none => exact .nothing
        | some instant => exact .ended _ instant hl (Placeholder.ofStage_endTimeStart stage)
      · cases range.stop with
        | none => exact .nothing
        | some instant => exact .ended _ instant hl (Placeholder.ofStage_endTimeStop stage)
    · simp at h

/-- Whichever clause is posed, it is the anchor's, one of a filter, or one of the scope's own. -/
theorem cases_of_mem {c : ScopeClause} {clauses : List ScopeClause} (h : s.clauses = clauses.map .ok)
    (hc : c ∈ clauses) : c = s.anchorPart ∨
      (∃ j unitCounts r, s.Restricts j unitCounts r ∧ c = s.entityPart j unitCounts r) ∨ s.Own c := by
  obtain ⟨entities, stack, -, he, hs, rfl⟩ := clauses_eq_ok h
  rw [List.cons_append, List.mem_cons, List.mem_append] at hc
  refine hc.imp_right fun hc => hc.elim (fun hc => ?_) fun hc => Or.inr (own_of_mem hs hc)
  rcases mem_entityClauses (he ▸ List.mem_map_of_mem hc) with rfl | ⟨j, u, r, hr, -, rfl⟩
  · exact Or.inr .nothing
  · exact Or.inl ⟨j, u, r, hr, rfl⟩

section Criteria

variable (hrules : s.rules = .criteria)
include hrules

theorem Restricts.fit {j : Join} {unitCounts : Bool} {r : Restriction} (h : s.Restricts j unitCounts r) :
    r.Fit j.tableAlias := by
  rcases h with ⟨rfl, f, -, -, hr⟩ | ⟨rfl, f, -, -, hr⟩ | ⟨rfl, f, -, -, hr⟩ <;> rw [hrules] at hr <;>
    exact Restriction.fit_ofCriteria (by decide) (by decide) hr

theorem Restricts.balanced (hfree : s.filters.UnitNamesFree) {j : Join} {unitCounts : Bool} {r : Restriction}
    (h : s.Restricts j unitCounts r) : r.Balanced := by
  rcases h with ⟨rfl, f, hf, -, hr⟩ | ⟨rfl, f, hf, -, hr⟩ | ⟨rfl, f, hf, -, hr⟩ <;> rw [hrules] at hr
  · exact Restriction.balanced_ofCriteria (hfree.issues f (issues_eq_some hf).2) hr
  · exact Restriction.balanced_ofCriteria (hfree.pullRequests f hf) hr
  · exact Restriction.balanced_ofCriteria (hfree.commits f hf) hr

end Criteria

attribute [local simp] ScopeClause.placeholders ScopeClause.names JoinRequest.placeholders

theorem balanced_anchorPart : s.anchorPart.Balanced := fun _ => by simp [anchorPart]

theorem balanced_entityPart {r : Restriction} (h : r.Balanced) (j : Join) (unitCounts : Bool) :
    (s.entityPart j unitCounts r).Balanced := by
  intro name
  have hkeys : name ∈ (s.entityPart j unitCounts r).names ↔ name ∈ r.bindings.keys := Iff.rfl
  rw [hkeys, ← h name]
  simp only [ScopeClause.placeholders, entityPart]
  split <;> simp [List.flatMap_map]

theorem Own.balanced {c : ScopeClause} (h : s.Own c) :
    (s.anchor.hasIssues = true ∧ ∃ states, c = s.sprintsOf states) ∨ c.Balanced := by
  cases h with
  | sprints states issues => exact Or.inl ⟨issues, states, rfl⟩
  | nothing => exact Or.inr fun _ => by simp [Scope.nothing, Demand.none]
  | active value => exact Or.inr fun _ => by simp [activeClause]
  | stack kind => exact Or.inr fun name => by cases h : kind.isArray <;> simp [stackPart, h]
  | trend =>
    refine Or.inr fun name => ?_
    cases h : s.anchor.isIssue <;> simp [trendPart, Anchor.trend, h]
  | ended => exact Or.inr fun _ => by simp [endBound]

theorem placeholders_sprintSelect (s : Scope) :
    Sql.placeholders s.sprintSelect.tokens = Placeholder.sprintStates ::
      if s.filters.issueIds.isEmpty then [] else [Placeholder.issueIntegrationIds] := by
  unfold sprintSelect
  extract_lets byState
  cases h : s.filters.issueIds.isEmpty <;> split <;> simp [byState, h]

theorem placeholders_sprintLine (s : Scope) :
    Sql.placeholders s.sprintLine.tokens = Sql.placeholders s.sprintSelect.tokens := by
  unfold sprintLine
  extract_lets tableAlias link
  have hl : link.flatMap Expr.placeholders = [] := by
    simp only [link]
    split <;> simp
  simp only [View.of_join, View.skipsNames_placeholders, hl, List.append_nil, View.of_source_select]

theorem mem_placeholders_sprintsOf {states : List String} {name : String} :
    name ∈ (s.sprintsOf states).placeholders ↔ name ∈ (s.sprintsOf states).names ∨
      name = Placeholder.issueIntegrationIds ∧ s.filters.issueIds ≠ [] := by
  have hp : (s.sprintsOf states).placeholders = Sql.placeholders s.sprintSelect.tokens := by
    simp [sprintsOf, placeholders_sprintLine]
  rw [hp, placeholders_sprintSelect]
  cases h : s.filters.issueIds <;> simp [sprintsOf]

section Selects

attribute [local simp] JoinLine.SourceClosed Source.Closed JoinLine.introduced? JoinLine.conditions JoinLine.tables

theorem legible_sprintSelect (hs : NoColon s.schema) : s.sprintSelect.Legible := by
  unfold sprintSelect
  extract_lets byState
  cases h : s.filters.issueIds.isEmpty <;> split <;> simp +decide [byState, hs, h]

theorem closed_sprintSelect (s : Scope) : s.sprintSelect.Closed := by
  unfold TableSelect.Closed sprintSelect
  extract_lets byState
  cases h : s.filters.issueIds.isEmpty <;> split <;> simp [TableSelect.introduced, byState, h]

theorem legible_sprintLine (hs : NoColon s.schema) : s.sprintLine.Legible := by
  refine ⟨legible_sprintSelect hs, by decide, ?_⟩
  split <;> simp +decide [Join.tableAlias]

theorem suits_sprintLine (s : Scope) (r : Registry) : s.sprintLine.Suits r .sprint := by
  refine ⟨rfl, ?_, s.closed_sprintSelect, ?_⟩
  · simp only [sprintLine, JoinLine.conditions]
    split <;> simp
  · intro name hn
    have h : name = Join.sprint.tableAlias ∨ name = Join.issue.tableAlias := by
      simp only [sprintLine, JoinLine.tables, JoinLine.conditions] at hn
      split at hn <;> simp [Join.tableAlias] at hn ⊢ <;> tauto
    exact h.imp_right fun h => Or.inl ⟨.issue, rfl, h⟩

end Selects

theorem noColon_anchor (a : Anchor) : NoColon a.tableAlias := by
  unfold Anchor.tableAlias
  split <;> decide

theorem spec_anchorPart : s.anchorPart.Spec s where
  legible := by
    have hp : IsName s.anchorPlaceholder := by
      unfold anchorPlaceholder
      split <;> decide
    simp +decide [anchorPart, noColon_anchor, hp]
  reads e he name hn := by
    refine ⟨s.anchor.join, ?_, Or.inl rfl⟩
    rw [List.mem_singleton.1 he] at hn
    rw [Anchor.tableAlias_join]
    simpa using hn

theorem spec_entityPart {r : Restriction} {j : Join} (h : r.Fit j.tableAlias) (unitCounts : Bool) :
    (s.entityPart j unitCounts r).Spec s where
  legible := by
    simp only [entityPart]
    split
    · intro e he
      obtain ⟨p, hp, rfl⟩ := List.mem_map.1 he
      simpa +decide [j.noColon_tableAlias] using h.legible p hp
    · exact h.legible
  reads e he name hn := by
    refine ⟨j, ?_, Or.inr (Or.inl List.mem_cons_self)⟩
    simp only [entityPart] at he
    split at he
    · obtain ⟨p, hp, rfl⟩ := List.mem_map.1 he
      have hr := h.reads p hp
      simp only [Expr.anyOf, Expr.seen_group, Expr.tables_chain, List.flatMap_cons, Expr.seen_isNull,
        Expr.seen_column, View.see_tables, Token.table?, Option.toList_some, List.flatMap_nil, List.append_nil,
        List.singleton_append, List.mem_cons] at hn
      rcases hn with rfl | hn
      · rfl
      · exact List.mem_singleton.1 (hr hn)
    · exact List.mem_singleton.1 (h.reads e he hn)

theorem noColon_stackColumn (stack : StackKind) (system : IssueSystem) : NoColon (stack.column system) := by
  cases stack <;> cases system <;> decide

theorem Own.spec {c : ScopeClause} (h : s.Own c) : c.Spec s := by
  cases h with
  | nothing => exact ⟨by simp [Scope.nothing], by simp [Scope.nothing]⟩
  | active value =>
    refine ⟨by simp +decide [activeClause], fun e he name hn => ⟨.issue, ?_, Or.inr (Or.inl List.mem_cons_self)⟩⟩
    rw [List.mem_singleton.1 he] at hn
    simpa [Join.tableAlias] using hn
  | sprints states issues => exact ⟨by simp [sprintsOf], by simp [sprintsOf]⟩
  | stack kind =>
    refine ⟨?_, fun e he name hn => ⟨.issue, ?_, Or.inr (Or.inl List.mem_cons_self)⟩⟩
    · cases h : kind.isArray <;> simp +decide [stackPart, h, noColon_stackColumn]
    · rw [List.mem_singleton.1 he] at hn
      cases h : kind.isArray <;> simpa [h, Join.tableAlias] using hn
  | trend =>
    refine ⟨?_, fun e he name hn => ⟨s.anchor.join, ?_, Or.inl rfl⟩⟩
    · cases h : s.anchor.isIssue <;> simp +decide [trendPart, Anchor.trend, h]
    · rw [List.mem_singleton.1 he] at hn
      rw [Anchor.tableAlias_join]
      cases h : s.anchor.isIssue <;> simpa [Anchor.trend, Anchor.tableAlias, h] using hn
  | @ended stage placeholder operator instant last named =>
    have halias := (Join.jobRun stage).noColon_tableAlias
    refine ⟨by simp +decide [endBound, halias, named.isName], fun e he name hn =>
      ⟨.jobRun stage, ?_, Or.inr (Or.inr ⟨stage, last, rfl⟩)⟩⟩
    rw [List.mem_singleton.1 he] at hn
    simpa using hn

theorem requests_endTimeClauses (s : Scope) : s.endTimeClauses.flatMap (·.demand.requests) = [] := by
  unfold endTimeClauses
  split
  · rename_i range _ _
    obtain ⟨start, stop⟩ := range
    cases start <;> cases stop <;> rfl
  · rfl

def ForEntity (req : JoinRequest) : Prop := req = .held .issue ∨ req = .held .pullRequest ∨ req = .held .commit

theorem requests_eq {clauses : List ScopeClause} (h : s.clauses = clauses.map .ok) :
    ∃ before after, (∀ req ∈ before, ForEntity req) ∧ (∀ req ∈ after, ForEntity req) ∧
      clauses.flatMap (·.demand.requests) = before ++ s.sprintPart.demand.requests ++ after := by
  obtain ⟨entities, stack, -, he, hs, rfl⟩ := clauses_eq_ok h
  have hentities : ∀ c ∈ entities, ∀ req ∈ c.demand.requests, ForEntity req := by
    intro c hc req hr
    rcases mem_entityClauses (he ▸ List.mem_map_of_mem hc) with rfl | ⟨j, u, r, hj, -, rfl⟩
    · simp [nothing, Demand.none] at hr
    · rw [List.mem_singleton.1 hr]
      rcases hj with ⟨rfl, -⟩ | ⟨rfl, -⟩ | ⟨rfl, -⟩ <;> simp [ForEntity]
  have hactive : ∀ req ∈ s.activePart.demand.requests, ForEntity req := by
    unfold activePart
    cases s.issues.bind (·.isActive) <;> simp [whenSome, nothing, Demand.none, activeClause, ForEntity]
  have hstack : ∀ req ∈ stack.demand.requests, ForEntity req := by
    rcases stackClause_eq_ok hs with rfl | ⟨kind, rfl⟩ <;> simp [nothing, Demand.none, stackPart, ForEntity]
  have htrend : s.trendClause.demand.requests = [] := by
    unfold trendClause
    split <;> rfl
  refine ⟨entities.flatMap (·.demand.requests) ++ s.activePart.demand.requests, stack.demand.requests, ?_, hstack, ?_⟩
  · intro req hr
    rcases List.mem_append.1 hr with hr | hr
    · obtain ⟨c, hc, hr⟩ := List.mem_flatMap.1 hr
      exact hentities c hc req hr
    · exact hactive req hr
  · simp [ownClauses, anchorPart, htrend, requests_endTimeClauses]

theorem requests_sprintPart (s : Scope) :
    s.sprintPart.demand.requests = [] ∨ s.sprintPart.demand.requests = [.supplied .sprint s.sprintLine] := by
  rcases s.sprintPart_cases with h | ⟨-, states, h⟩ <;> rw [h]
  · exact Or.inl rfl
  · exact Or.inr rfl

section Requests

variable {clauses : List ScopeClause} {r : Registry}

theorem legible_requests (hs : NoColon s.schema) (h : s.clauses = clauses.map .ok) :
    ∀ req ∈ clauses.flatMap (·.demand.requests), req.Legible := by
  obtain ⟨before, after, hb, ha, hr⟩ := requests_eq h
  have hentity : ∀ req, ForEntity req → req.Legible := by rintro _ (rfl | rfl | rfl) <;> trivial
  rw [hr]
  intro req hm
  rcases List.mem_append.1 hm with hm | hm
  · rcases List.mem_append.1 hm with hm | hm
    · exact hentity req (hb req hm)
    · rcases s.requests_sprintPart with hp | hp <;> rw [hp] at hm
      · simp at hm
      · rw [List.mem_singleton.1 hm]
        exact legible_sprintLine hs
  · exact hentity req (ha req hm)

theorem landAll_entities {reqs : List JoinRequest} (h : ∀ req ∈ reqs, ForEntity req) : r.LandAll reqs := by
  induction reqs generalizing r with
  | nil => trivial
  | cons req rest ih =>
    rw [List.forall_mem_cons] at h
    refine ⟨?_, ih h.2⟩
    rcases h.1 with rfl | rfl | rfl <;> trivial

theorem closeAll_entities {reqs : List JoinRequest} (h : ∀ req ∈ reqs, ForEntity req) : r.CloseAll reqs := by
  induction reqs generalizing r with
  | nil => trivial
  | cons req rest ih =>
    rw [List.forall_mem_cons] at h
    refine ⟨?_, ih h.2⟩
    rcases h.1 with rfl | rfl | rfl <;> rfl

theorem notJoined_sprint {reqs : List JoinRequest} (h : ∀ req ∈ reqs, ForEntity req)
    (hr : r.holds .sprint = false) : (r.requestAll reqs).isJoined .sprint = false := by
  rw [Bool.eq_false_iff]
  intro hj
  rcases Registry.isJoined_iff.1 hj with ha | hh
  · rcases Registry.anchor_join (r.requestAll reqs).context.anchor with hi | hi <;> rw [hi] at ha <;> cases ha
  · rcases Registry.holds_requestAll hh with hh | ⟨req, hm, hd⟩
    · rw [hr] at hh
      cases hh
    · rcases h req hm with rfl | rfl | rfl <;> simp [JoinRequest.join, Join.dependencies] at hd

theorem landAll_requests (h : s.clauses = clauses.map .ok) (hr : r.holds .sprint = false) :
    r.LandAll (clauses.flatMap (·.demand.requests)) := by
  obtain ⟨before, after, hb, ha, hreqs⟩ := requests_eq h
  rw [hreqs]
  refine Registry.landAll_append (Registry.landAll_append (landAll_entities hb) ?_) (landAll_entities ha)
  rcases s.requests_sprintPart with hp | hp <;> rw [hp]
  · trivial
  · exact ⟨notJoined_sprint hb hr, trivial⟩

theorem closeAll_requests (h : s.clauses = clauses.map .ok) : r.CloseAll (clauses.flatMap (·.demand.requests)) := by
  obtain ⟨before, after, hb, ha, hreqs⟩ := requests_eq h
  rw [hreqs]
  refine Registry.closeAll_append (Registry.closeAll_append (closeAll_entities hb) ?_) (closeAll_entities ha)
  rcases s.requests_sprintPart with hp | hp <;> rw [hp]
  · trivial
  · exact ⟨⟨rfl, s.suits_sprintLine _⟩, trivial⟩

end Requests

end Scope
end LeadTime
