import LeadTime.Proofs.Registry.Chain
import Mathlib

/-! The table of ingestions in a chain. The registry's own lines join it for the latest ingestion, on a line of its own
under an issue and within the select of issues besides; no line that is handed in does, so that a chain joins it once
or not at all. -/
namespace LeadTime

open Sql

namespace Sql.JoinLine

/-- The tables that a line joins: its own, or those that its select joins in turn. -/
def tableJoins : JoinLine → List TableJoin
  | .join side (.table table) as on => [⟨side, table, as, on⟩]
  | .join _ (.select s) _ _ => s.joins
  | .join _ (.paired s) _ _ => s.left.joins ++ s.right.joins
  | .verbatim _ => []

def ingestions (l : JoinLine) : List TableJoin := l.tableJoins.filter (·.table.name = "integration_tracker")

theorem infix_source (side : Side) (source : Source) (as : String) (on : List Expr) :
    source.tokens <:+: (join side source as on).tokens :=
  ⟨[.fixed side.text], [.fixed " AS ", .name as] ++ onAll on, by simp [tokens]⟩

theorem infix_tableJoins {l : JoinLine} {j : TableJoin} (h : j ∈ l.tableJoins) : j.tokens <:+: l.tokens := by
  have hselect {s : TableSelect} (hj : j ∈ s.joins) : j.tokens <:+: s.tokens := by
    have hjoins : Token.fixed " " :: j.tokens <:+: s.joins.flatMap fun j => .fixed " " :: j.tokens :=
      List.infix_of_mem_flatten (List.mem_map_of_mem hj)
    exact (List.suffix_cons _ _).isInfix.trans (hjoins.trans (List.infix_append _ _ _))
  cases l with
  | verbatim text => cases h
  | join side source as on =>
    cases source with
    | table table =>
      rw [List.mem_singleton.1 h]
      exact List.infix_rfl
    | select s =>
      have hsource : s.tokens <:+: (Source.select s).tokens := ⟨[.fixed "("], [.fixed ")"], rfl⟩
      exact (hselect h).trans (hsource.trans (infix_source side _ as on))
    | paired s =>
      have hsource : s.tokens <:+: (Source.paired s).tokens := ⟨[.fixed "("], [.fixed ")"], rfl⟩
      have hright : s.right.tokens <:+: s.tokens :=
        (List.suffix_cons _ _).isInfix.trans ((List.infix_append _ _ _).trans (List.prefix_append _ _).isInfix)
      have hleft : s.left.tokens <:+: s.tokens :=
        (List.suffix_cons _ _).isInfix.trans ((List.infix_append _ _ _).trans
          ((List.prefix_append _ _).trans ((List.prefix_append _ _).trans (List.prefix_append _ _))).isInfix)
      rcases List.mem_append.1 h with hj | hj
      · exact ((hselect hj).trans hleft).trans (hsource.trans (infix_source side _ as on))
      · exact ((hselect hj).trans hright).trans (hsource.trans (infix_source side _ as on))

theorem ingestions_extend {l : JoinLine} (h : l.ingestions = []) (conditions : List Expr) :
    (l.extend conditions).ingestions = [] := by
  cases l with
  | verbatim text => exact h
  | join side source as on =>
    cases source with
    | table table => simpa [ingestions, tableJoins, extend] using h
    | select s => exact h
    | paired s => exact h

end Sql.JoinLine

theorem Sql.ingestions_extendLast {lines : List JoinLine} (h : ∀ l ∈ lines, l.ingestions = [])
    (conditions : List Expr) : (extendLast lines conditions).flatMap JoinLine.ingestions = [] := by
  induction lines with
  | nil => rfl
  | cons l rest ih =>
    rw [List.forall_mem_cons] at h
    cases rest with
    | nil => simp [extendLast, JoinLine.ingestions_extend h.1]
    | cons next rest => rw [extendLast, List.flatMap_cons, h.1, ih h.2, List.nil_append]; simp

theorem IssueSystem.mapping_ne_ingestions (s : IssueSystem) :
    s.mapping.commits ≠ "integration_tracker" ∧ s.mapping.pullRequests ≠ "integration_tracker" := by
  cases s <;> decide

namespace JoinContext

variable {context : JoinContext}

def ingestionsOf (context : JoinContext) : Join → List TableJoin
  | .freshness => [context.latestIngestion]
  | .issue => if context.freshness then [context.latestIngestion] else []
  | _ => []

section Lines

attribute [local simp] JoinLine.ingestions JoinLine.tableJoins JoinLine.leftTable table latestIngestion

/-- Whatever conditions it takes besides, the issues' select joins the table at most once. -/
theorem ingestions_issue (context : JoinContext) (conditions : List Expr) :
    (extendLast (context.lines .issue) conditions).flatMap JoinLine.ingestions = context.ingestionsOf .issue := by
  have h := context.anchor.issueSystem.mapping_ne_ingestions
  simp only [lines, issueLines, ingestionsOf]
  cases hf : context.freshness <;> cases hc : context.prIssueCorrelation <;>
    simp [extendLast, JoinLine.extend, issueSelect, hf, h]

theorem ingestions_freshness (context : JoinContext) :
    (context.lines .freshness).flatMap JoinLine.ingestions = context.ingestionsOf .freshness := by
  simp [lines, ingestionsOf]

theorem ingestions_lines {j : Join} (hi : j ≠ .issue) (hf : j ≠ .freshness) :
    ∀ l ∈ context.lines j, l.ingestions = [] := by
  have h := context.anchor.issueSystem.mapping_ne_ingestions
  cases j
  case issue => exact absurd rfl hi
  case freshness => exact absurd rfl hf
  case commit =>
    simp only [lines, commitLines]
    split <;> simp [h]
  case pullRequest =>
    simp only [lines, pullRequestLines]
    split <;> simp [h]
  case statusHistory =>
    simp only [lines, statusLines]
    split <;> simp
  all_goals simp [lines]

end Lines

end JoinContext

/-- The lines of an entry are the registry's own, or do not join the table of ingestions; and what joins it on a line
of its own takes no further condition. -/
structure JoinEntry.Ingests (context : JoinContext) (e : JoinEntry) : Prop where
  lines : e.lines = context.lines e.join ∨ e.join.isSupplied = true ∧ ∀ l ∈ e.lines, l.ingestions = []
  conditions : e.join = .freshness → e.conditions = []

theorem JoinEntry.Ingests.written {context : JoinContext} {e : JoinEntry} (h : e.Ingests context) :
    e.written.flatMap JoinLine.ingestions = context.ingestionsOf e.join := by
  rw [JoinEntry.written]
  rcases h.lines with hl | ⟨hs, hl⟩
  · by_cases hf : e.join = .freshness
    · rw [h.conditions hf, extendLast_nil, hl, hf, context.ingestions_freshness]
    · by_cases hi : e.join = .issue
      · rw [hl, hi, context.ingestions_issue]
      · rw [hl, ingestions_extendLast (JoinContext.ingestions_lines hi hf)]
        cases hj : e.join <;> simp_all [JoinContext.ingestionsOf]
  · rw [ingestions_extendLast hl]
    cases hj : e.join <;> simp_all [JoinContext.ingestionsOf, Join.isSupplied]

def JoinRequest.SparesIngestions : JoinRequest → Prop
  | .held _ => True
  | .supplied _ line => line.ingestions = []
  | .condition j _ => j ≠ .freshness

namespace Registry

variable {r : Registry} {req : JoinRequest} {reqs : List JoinRequest}

def Ingests (r : Registry) : Prop := ∀ e ∈ r.entries, e.Ingests r.context

theorem Ingests.request (h : r.Ingests) (hreq : req.Proper) (hspares : req.SparesIngestions) :
    (r.request req).Ingests := by
  refine request_induction (P := Ingests) h (fun s j lines hc hs _ _ hput e he => ?_) fun j c hcond e he => ?_
  · rw [context_push]
    rcases List.mem_append.1 he with he | he
    · exact hs e he
    · rw [List.mem_singleton.1 he, hc]
      refine ⟨?_, fun _ => rfl⟩
      rcases hput with ⟨-, rfl⟩ | ⟨-, rfl⟩ | ⟨line, rfl, rfl⟩
      · exact Or.inl rfl
      · exact Or.inl rfl
      · exact Or.inr ⟨hreq.1, List.forall_mem_singleton.2 hspares⟩
  · subst hcond
    obtain ⟨e, hm, rfl⟩ := List.mem_map.1 he
    have hold := h e hm
    split
    · rename_i hj
      exact ⟨hold.lines, fun hf => absurd (hj.symm.trans hf) hspares⟩
    · exact hold

theorem Ingests.requestAll (h : r.Ingests) (hreqs : ∀ req ∈ reqs, req.Proper ∧ req.SparesIngestions) :
    (r.requestAll reqs).Ingests := by
  induction reqs generalizing r with
  | nil => exact h
  | cons req rest ih =>
    rw [List.forall_mem_cons] at hreqs
    exact ih (h.request hreqs.1.1 hreqs.1.2) hreqs.2

theorem ingests_empty (context : JoinContext) : (empty context).Ingests := by simp [Ingests, empty]

theorem flatMap_ite_of_nodup {α β : Type} [DecidableEq α] {items : List α} (h : items.Nodup) (a : α)
    (contribution : List β) :
    (items.flatMap fun b => if b = a then contribution else []) = if a ∈ items then contribution else [] := by
  induction items with
  | nil => rfl
  | cons b rest ih =>
    rw [List.nodup_cons] at h
    rw [List.flatMap_cons, ih h.2]
    by_cases hb : b = a
    · subst hb
      rw [if_pos rfl, if_neg h.1, if_pos List.mem_cons_self, List.append_nil]
    · rw [if_neg hb, List.nil_append]
      simp only [List.mem_cons, Ne.symm hb, false_or]

/-- The join whose lines may join the table of ingestions: the latest ingestion under an issue, else the issue. -/
def ingesting (a : Anchor) : Join := if a.isIssue then .freshness else .issue

/-- A chain joins the table of ingestions once, for the latest, where that is what counts and there are issues. -/
theorem Formed.ingestions_lines (h : r.Formed) (hi : r.Ingests)
    (hlatest : r.holds .freshness = true → r.context.anchor.isIssue = true ∧ r.context.freshness = true) :
    r.lines.flatMap JoinLine.ingestions =
      if r.holds (ingesting r.context.anchor) = true ∧ r.context.freshness = true then [r.context.latestIngestion]
      else [] := by
  have hnodup : (r.ordered.map (·.join)).Nodup :=
    ((List.mergeSort_perm r.entries _).map _).nodup_iff.2 h.nodup
  have hmem (j : Join) : j ∈ r.ordered.map (·.join) ↔ r.holds j = true := by
    simp only [List.mem_map, mem_ordered, holds_iff]
  have hentry : ∀ j ∈ r.ordered.map (·.join), r.context.ingestionsOf j =
      if j = ingesting r.context.anchor then
        if r.context.freshness = true then [r.context.latestIngestion] else []
      else [] := by
    intro j hj
    have besides : j ≠ r.context.anchor.join := by
      rintro rfl
      rw [hmem, h.anchor] at hj
      cases hj
    rw [hmem] at hj
    cases ha : r.context.anchor.isIssue <;>
      cases j <;> simp_all [JoinContext.ingestionsOf, ingesting, Anchor.join]
  have hwritten : ∀ e ∈ r.ordered, e.written.flatMap JoinLine.ingestions = r.context.ingestionsOf e.join :=
    fun e he => (hi e (mem_ordered.1 he)).written
  calc r.lines.flatMap JoinLine.ingestions
      = r.ordered.flatMap fun e => r.context.ingestionsOf e.join := by
        rw [lines, List.flatMap_assoc]
        exact List.flatMap_congr hwritten
    _ = (r.ordered.map (·.join)).flatMap r.context.ingestionsOf := by rw [List.flatMap_map]
    _ = _ := by
        rw [List.flatMap_congr hentry, flatMap_ite_of_nodup hnodup]
        simp only [hmem]
        split <;> simp_all

end Registry
end LeadTime
