import LeadTime.Proofs.Compilation
import LeadTime.Proofs.Revaluation.StageEvent
import LeadTime.Proofs.Scope
import Mathlib

/-! The conditions on whole rows under new values. Filters become restrictions with the same predicates; each clause is
posed, or fails, as before, and differs in what it binds alone. -/
namespace LeadTime

open Sql

variable (v : Revaluation)

/-- The same predicates, with values bound to the same names. -/
structure Restriction.Alike (a b : Restriction) : Prop where
  predicates : b.predicates = a.predicates
  names : b.bindings.keys = a.bindings.keys

namespace Restriction

theorem Alike.refl (r : Restriction) : r.Alike r := ⟨rfl, rfl⟩

theorem Alike.isEmpty {a b : Restriction} (h : a.Alike b) : b.isEmpty = a.isEmpty := by
  rw [Restriction.isEmpty, Restriction.isEmpty, h.predicates]

theorem Alike.add {a b : Restriction} (h : a.Alike b) (key : String) (predicate : Expr) (placeholder : String)
    (values values' : List String) :
    (a.add key predicate placeholder values).Alike (b.add key predicate placeholder values') := by
  refine ⟨?_, ?_⟩
  · rw [Restriction.add, Restriction.add, h.predicates]
  · rw [Restriction.add, Restriction.add, KeyMap.keys_insert, KeyMap.keys_insert, h.names]

theorem agree_addCriterion {tableAlias : String} (criterion : String × List String) {a b : Restriction} (h : a.Alike b) :
    Agree Alike (a.addCriterion tableAlias criterion)
      (b.addCriterion tableAlias (criterion.1, criterion.2.map v.text)) := by
  simp only [addCriterion, List.isEmpty_map]
  split
  · exact .ok h
  · split
    · exact .ok (h.add _ _ _ _ _)
    · exact .error

theorem Alike.addUnit {a b : Restriction} (h : a.Alike b) (tableAlias userColumn : String) (unit : OrgUnit) :
    (a.addUnit tableAlias userColumn unit).Alike (b.addUnit tableAlias userColumn (v.orgUnit unit)) := by
  simp only [Restriction.addUnit, Revaluation.orgUnit, List.isEmpty_map]
  split
  · exact h
  · exact h.add _ _ _ _ _

theorem agree_ofCriteria (userColumn : String) (criteria : KeyMap (List String)) (unitCounts : Bool)
    (tableAlias : String) (unit : OrgUnit) :
    Agree Alike (ofCriteria userColumn criteria unitCounts tableAlias unit)
      (ofCriteria userColumn (v.criteria criteria) unitCounts tableAlias (v.orgUnit unit)) := by
  refine (Agree.foldlM (fun criterion a b h => agree_addCriterion v criterion h) (.refl none)).map fun a b h => ?_
  split
  · exact h.addUnit v tableAlias userColumn unit
  · exact h

end Restriction

theorem isEmpty_trendKeys_query (q : Query) : (v.query q).trendKeys.isEmpty = q.trendKeys.isEmpty := by
  cases h : q.trendKeys <;> simp [Revaluation.query, h]

namespace EntityFilters

theorem issueIds_filters (f : EntityFilters) : (v.filters f).issueIds = f.issueIds.map v.text := by
  simp only [issueIds, Revaluation.filters]
  cases f.issues <;> rfl

theorem codeIds_filters (f : EntityFilters) : (v.filters f).codeIds = f.codeIds.map v.text := by
  have hcommits : codeIds.commitIds (v.filters f) = (codeIds.commitIds f).map v.text := by
    simp only [codeIds.commitIds, Revaluation.filters]
    cases f.commits <;> rfl
  cases h : f.pullRequests with
  | none => simp [codeIds, Revaluation.filters, h, ← hcommits]
  | some p =>
    cases hp : p.integrationIds <;>
      simp [codeIds, Revaluation.filters, Revaluation.codeFilter, h, hp, ← hcommits]

end EntityFilters

structure ScopeClause.Alike (a b : ScopeClause) : Prop where
  conditions : b.conditions = a.conditions
  demand : a.demand.Alike b.demand

theorem ScopeClause.Alike.refl (c : ScopeClause) : c.Alike c := ⟨rfl, rfl, rfl⟩

namespace Scope

def revalue (v : Revaluation) (s : Scope) : Scope := { s with filters := v.filters s.filters, query := v.query s.query }

variable (s : Scope)

@[simp] theorem schema_revalue : (s.revalue v).schema = s.schema := rfl

@[simp] theorem anchor_revalue : (s.revalue v).anchor = s.anchor := rfl

@[simp] theorem filters_revalue : (s.revalue v).filters = v.filters s.filters := rfl

@[simp] theorem query_revalue : (s.revalue v).query = v.query s.query := rfl

@[simp] theorem lastJobRun_revalue : (s.revalue v).lastJobRun = s.lastJobRun := rfl

theorem anchorIds_revalue : (s.revalue v).anchorIds = s.anchorIds.map v.text := by
  simp only [anchorIds, anchor_revalue, filters_revalue, EntityFilters.issueIds_filters, EntityFilters.codeIds_filters]
  split <;> rfl

theorem agree_anchorClause : Agree ScopeClause.Alike s.anchorClause (s.revalue v).anchorClause := by
  rw [anchorClause_eq, anchorClause_eq, anchorIds_revalue, List.isEmpty_map]
  split
  · exact .error
  · exact .ok ⟨rfl, rfl, rfl⟩

theorem agree_entityClause (j : Join) (unitCounts : Bool) {restriction restriction' : Except String Restriction}
    (h : Agree Restriction.Alike restriction restriction') :
    Agree ScopeClause.Alike (s.entityClause j unitCounts restriction)
      ((s.revalue v).entityClause j unitCounts restriction') := by
  cases h with
  | error => exact .error
  | ok h =>
    simp only [entityClause, h.isEmpty]
    split
    · exact .ok (.refl _)
    · refine .ok ⟨?_, rfl, h.names⟩
      simp only [h.predicates]
      rfl

theorem issues_revalue : (s.revalue v).issues = s.issues.map v.issueFilter := by
  rw [issues, issues, anchor_revalue, filters_revalue, Revaluation.filters]
  split <;> rfl

theorem forall₂_toList {α : Type} {value : Option α} {change : α → α} {clause clause' : α → Except Error ScopeClause}
    (h : ∀ a, Agree ScopeClause.Alike (clause a) (clause' (change a))) :
    List.Forall₂ (Agree ScopeClause.Alike) (value.toList.map clause) ((value.map change).toList.map clause') := by
  cases value with
  | none => exact .nil
  | some a => exact .cons (h a) .nil

theorem alike_entityClauses (hrules : s.rules = .criteria) :
    List.Forall₂ (Agree ScopeClause.Alike) s.entityClauses (s.revalue v).entityClauses := by
  have hrules' : (s.revalue v).rules = .criteria := hrules
  simp only [entityClauses, issues_revalue, hrules, hrules']
  refine List.rel_append (List.rel_append (forall₂_toList fun f => ?_) (forall₂_toList fun f => ?_))
    (forall₂_toList fun f => ?_) <;>
    exact s.agree_entityClause v _ _ (Restriction.agree_ofCriteria v _ _ _ _ _)

theorem alike_whenSome {α : Type} {value : Option α} {change : α → α} {clause clause' : α → ScopeClause}
    (h : ∀ a, (clause a).Alike (clause' (change a))) :
    (whenSome value clause).Alike (whenSome (value.map change) clause') := by
  cases value with
  | none => exact .refl _
  | some a => exact h a

theorem sprintLine_revalue : (s.revalue v).sprintLine = s.sprintLine := by
  simp only [sprintLine, sprintSelect, schema_revalue, anchor_revalue, filters_revalue, EntityFilters.issueIds_filters,
    List.isEmpty_map]

theorem alike_sprintClause (states : List String) :
    (s.sprintClause states).Alike ((s.revalue v).sprintClause (states.map v.text)) := by
  simp only [sprintClause, List.isEmpty_map, sprintLine_revalue]
  split
  · exact .refl _
  · exact ⟨rfl, rfl, rfl⟩

theorem agree_stackClause : Agree ScopeClause.Alike s.stackClause (s.revalue v).stackClause := by
  have hstack : (v.query s.query).stack = s.query.stack := rfl
  have hvalues : (v.query s.query).stackValues.isEmpty = s.query.stackValues.isEmpty := List.isEmpty_map
  rw [stackClause, stackClause, anchor_revalue, query_revalue, hstack, hvalues]
  split
  · exact .ok (.refl _)
  · split
    · exact .ok (.refl _)
    · split
      · exact .error
      · exact .ok ⟨rfl, rfl, rfl⟩

theorem alike_trendClause : s.trendClause.Alike (s.revalue v).trendClause := by
  simp only [trendClause, anchor_revalue, query_revalue, isEmpty_trendKeys_query]
  split
  · exact .refl _
  · exact ⟨rfl, rfl, rfl⟩

theorem alike_endTimeClauses : List.Forall₂ ScopeClause.Alike s.endTimeClauses (s.revalue v).endTimeClauses := by
  have hrange : (v.filters s.filters).jobRuns.bind (·.endTime) =
      (s.filters.jobRuns.bind (·.endTime)).map v.range := by
    simp only [Revaluation.filters]
    cases s.filters.jobRuns <;> rfl
  simp only [endTimeClauses, lastJobRun_revalue, filters_revalue, hrange]
  cases s.lastJobRun with
  | none => exact .nil
  | some stage =>
    cases s.filters.jobRuns.bind (·.endTime) with
    | none => exact .nil
    | some range =>
      exact .cons (alike_whenSome fun _ => ⟨rfl, rfl, rfl⟩) (.cons (alike_whenSome fun _ => ⟨rfl, rfl, rfl⟩) .nil)

/-- Each clause is posed, or fails, as before, and clauses that are posed are alike. -/
theorem alike_clauses (hrules : s.rules = .criteria) :
    List.Forall₂ (Agree ScopeClause.Alike) s.clauses (s.revalue v).clauses := by
  have hactive : (whenSome (s.issues.bind (·.isActive)) activeClause).Alike
      (whenSome ((s.revalue v).issues.bind (·.isActive)) activeClause) := by
    rw [issues_revalue]
    cases s.issues with
    | none => exact .refl _
    | some f => exact alike_whenSome fun _ => ⟨rfl, rfl, rfl⟩
  have hsprints : (whenSome s.issues fun f => s.sprintClause f.sprintStates).Alike
      (whenSome (s.revalue v).issues fun f => (s.revalue v).sprintClause f.sprintStates) := by
    rw [issues_revalue]
    exact alike_whenSome fun f => s.alike_sprintClause v f.sprintStates
  have hends : List.Forall₂ (Agree ScopeClause.Alike) (s.endTimeClauses.map (Except.ok (ε := Error)))
      ((s.revalue v).endTimeClauses.map (Except.ok (ε := Error))) := by
    rw [List.forall₂_map_left_iff, List.forall₂_map_right_iff]
    exact (s.alike_endTimeClauses v).imp fun _ _ h => .ok h
  exact List.rel_append (List.rel_append (.cons (s.agree_anchorClause v) (s.alike_entityClauses v hrules))
    (.cons (.ok hactive) (.cons (.ok hsprints) (.cons (s.agree_stackClause v) (.cons (.ok (s.alike_trendClause v)) .nil)))))
    hends

end Scope
end LeadTime
