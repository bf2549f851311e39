import LeadTime.Pipeline
import LeadTime.Proofs.Registry.Closure
import LeadTime.Proofs.Registry.Placeholders
import Mathlib

/-! What is true of the start of a pipeline, whatever starts it. -/
namespace LeadTime

open Sql

/-- What the clause of every start does: it binds what it writes, asks for joins that belong to no stage, and reads
from the anchor and from joins that it asks for. -/
structure StartClause.Spec (anchor : Anchor) (c : StartClause) : Prop where
  expression : c.expression.placeholders = []
  written : ∀ name, name ∈ c.demand.requests.flatMap JoinRequest.placeholders ↔
    name ∈ c.demand.bindings.map Prod.fst
  named : ∀ name ∈ c.demand.bindings.map Prod.fst, name = Placeholder.startingEventTypes
  legible : c.expression.Legible ∧ ∀ req ∈ c.demand.requests, req.Legible
  joins : ∀ req ∈ c.demand.requests, req.join = .commit ∨ req.join = .startEvent
  lands : ∀ r : Registry, r.LandAll c.demand.requests
  closes : ∀ r : Registry, r.CloseAll c.demand.requests
  reads : ∀ name ∈ c.expression.tables, ∃ j : Join, name = j.tableAlias ∧
    (j = anchor.join ∨ .held j ∈ c.demand.requests)

namespace StartTime

attribute [local simp] JoinRequest.placeholders JoinRequest.join JoinRequest.Lands JoinRequest.Closed
  Registry.LandAll Registry.CloseAll JoinRequest.Legible

theorem legible_createdAt (a : Anchor) : a.createdAt.Legible := by
  unfold Anchor.createdAt
  split <;> simp +decide

theorem placeholders_createdAt (a : Anchor) : a.createdAt.placeholders = [] := by
  unfold Anchor.createdAt
  split <;> simp

theorem tables_createdAt (a : Anchor) : a.createdAt.tables = [a.tableAlias] := by
  obtain ⟨calculation, issueSystem⟩ := a
  cases calculation <;> cases issueSystem <;> rfl

theorem spec_anchorCreated (anchor : Anchor) : (clause anchor .anchorCreated).Spec anchor where
  expression := placeholders_createdAt anchor
  written := by simp [clause, Demand.none]
  named := by simp [clause, Demand.none]
  legible := ⟨legible_createdAt anchor, by simp [clause, Demand.none]⟩
  joins := by simp [clause, Demand.none]
  lands := by simp [clause, Demand.none]
  closes := by simp [clause, Demand.none]
  reads name hn := by
    rw [clause, tables_createdAt] at hn
    exact ⟨anchor.join, by rw [Anchor.tableAlias_join]; exact List.mem_singleton.1 hn, Or.inl rfl⟩

theorem spec_commitCreated (anchor : Anchor) : (clause anchor .commitCreated).Spec anchor where
  expression := rfl
  written := by simp [clause]
  named := by simp [clause]
  legible := ⟨⟨by decide, by decide⟩, by simp [clause]⟩
  joins := by simp [clause]
  lands := by simp [clause]
  closes := by simp [clause, Join.isSupplied]
  reads name hn := ⟨.commit, List.mem_singleton.1 hn, Or.inr List.mem_cons_self⟩

section TypeDemand

variable {types : List String} {r : Registry}

theorem written_typeDemand {name : String} : name ∈ (typeDemand types).requests.flatMap JoinRequest.placeholders ↔
    name ∈ (typeDemand types).bindings.map Prod.fst := by
  unfold typeDemand
  split <;> simp [Demand.none]

theorem eq_of_mem_typeDemand {name : String} (h : name ∈ (typeDemand types).bindings.map Prod.fst) :
    name = Placeholder.startingEventTypes := by
  unfold typeDemand at h
  split at h
  · simp [Demand.none] at h
  · simpa using h

theorem eq_of_mem_requests_typeDemand {req : JoinRequest} (h : req ∈ (typeDemand types).requests) :
    req = .condition .startEvent (.among (.column "ge" "event_type") Placeholder.startingEventTypes) := by
  unfold typeDemand at h
  split at h
  · simp [Demand.none] at h
  · simpa using h

theorem landAll_typeDemand (h : r.holds .startEvent = true) : r.LandAll (typeDemand types).requests := by
  unfold typeDemand
  split <;> simp [Demand.none, h]

theorem closeAll_typeDemand : r.CloseAll (typeDemand types).requests := by
  unfold typeDemand
  split <;> simp [Demand.none, Join.tableAlias]

end TypeDemand

theorem spec_genericEvent {anchor : Anchor} {otherwise : StartTime} (h : (otherwise.clause anchor).Spec anchor)
    (types : List String) : (clause anchor (.genericEvent types otherwise)).Spec anchor := by
  have hrequests : (clause anchor (.genericEvent types otherwise)).demand.requests =
      (otherwise.clause anchor).demand.requests ++ [.held .startEvent] ++ (typeDemand types).requests := rfl
  have hbindings : (clause anchor (.genericEvent types otherwise)).demand.bindings =
      (otherwise.clause anchor).demand.bindings ++ [] ++ (typeDemand types).bindings := rfl
  have hexpression : (clause anchor (.genericEvent types otherwise)).expression =
      .apply "COALESCE" [.column "ge" "event_time", (otherwise.clause anchor).expression] := rfl
  have hmem : ∀ req ∈ (clause anchor (.genericEvent types otherwise)).demand.requests,
      req ∈ (otherwise.clause anchor).demand.requests ∨ req = .held .startEvent ∨
        req = .condition .startEvent (.among (.column "ge" "event_type") Placeholder.startingEventTypes) := by
    intro req hr
    rw [hrequests, List.mem_append, List.mem_append, List.mem_singleton, or_assoc] at hr
    exact hr.imp_right (Or.imp_right eq_of_mem_requests_typeDemand)
  -- The restriction goes to the line of the event, which stands once the event was asked for.
  have hholds (r : Registry) : (r.requestAll ((otherwise.clause anchor).demand.requests ++
      [.held .startEvent])).holds .startEvent = true := by
    refine Registry.holds_of_isJoined (Registry.isJoined_of_mem_held (by simp)) ?_
    rcases Registry.anchor_join (r.requestAll ((otherwise.clause anchor).demand.requests ++
      [.held .startEvent])).context.anchor with h | h <;> rw [h] <;> simp
  exact {
    expression := by simp [hexpression, h.expression]
    written := fun name => by
      rw [hrequests, hbindings, List.append_nil, List.flatMap_append, List.flatMap_append, List.map_append,
        List.mem_append, List.mem_append, List.mem_append, h.written, written_typeDemand]
      simp
    named := fun name hn => by
      rw [hbindings, List.append_nil, List.map_append] at hn
      exact (List.mem_append.1 hn).elim (h.named name) eq_of_mem_typeDemand
    legible := by
      refine ⟨by simpa +decide [hexpression] using h.legible.1, fun req hr => ?_⟩
      rcases hmem req hr with hr | rfl | rfl
      · exact h.legible.2 req hr
      · trivial
      · simp +decide
    joins := fun req hr => by
      rcases hmem req hr with hr | rfl | rfl
      · exact h.joins req hr
      · exact Or.inr rfl
      · exact Or.inr rfl
    lands := fun r => by
      rw [hrequests]
      exact Registry.landAll_append (Registry.landAll_append (h.lands r) (by simp)) (landAll_typeDemand (hholds r))
    closes := fun r => by
      rw [hrequests]
      exact Registry.closeAll_append (Registry.closeAll_append (h.closes r) (by simp [Join.isSupplied]))
        closeAll_typeDemand
    reads := fun name hn => by
      rw [hexpression] at hn
      rw [hrequests]
      rcases (by simpa using hn) with rfl | hn
      · exact ⟨.startEvent, rfl, Or.inr (by simp)⟩
      · obtain ⟨j, hj, h⟩ := h.reads name hn
        exact ⟨j, hj, h.imp_right fun h => by simp [h]⟩ }

theorem spec_clause (anchor : Anchor) (start : StartTime) : (start.clause anchor).Spec anchor := by
  induction start with
  | anchorCreated => exact spec_anchorCreated anchor
  | commitCreated => exact spec_commitCreated anchor
  | genericEvent types otherwise ih => exact spec_genericEvent ih types

end StartTime
end LeadTime
