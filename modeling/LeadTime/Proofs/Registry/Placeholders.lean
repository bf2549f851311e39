import LeadTime.Proofs.Registry.Growth
import LeadTime.Proofs.Sql.Legible
import Mathlib

/-! The placeholders in a chain of joins. The registry's own lines have none, so that the chain holds those of the lines
and conditions that were handed in, and all of them where every request lands: a line's join is not there yet,
and a condition's join is. -/
namespace LeadTime

open Sql

theorem Join.noColon_tableAlias (j : Join) : NoColon j.tableAlias := by
  cases j with
  | label n | jobRun n | genericEvent n => exact (noColon_append _ _).2 ⟨by decide, noColon_repr n⟩
  | _ => decide

namespace JoinEntry

def placeholders (e : JoinEntry) : List String :=
  e.lines.flatMap (fun l => Sql.placeholders l.tokens) ++ e.conditions.flatMap Expr.placeholders

theorem placeholders_tokens (e : JoinEntry) : Sql.placeholders e.tokens = e.placeholders := by
  simp [tokens, placeholders, List.flatMap_map]

def Legible (e : JoinEntry) : Prop := (∀ l ∈ e.lines, l.Legible) ∧ ∀ c ∈ e.conditions, c.Legible

theorem Legible.tokens {e : JoinEntry} (h : e.Legible) : Sql.Legible e.tokens := by
  have hlines : Sql.Legible (separated "\n" (e.lines.map JoinLine.tokens)) := by
    refine .separated (by decide) (by decide) fun part hp => ?_
    obtain ⟨l, hl, rfl⟩ := List.mem_map.1 hp
    exact (h.1 l hl).tokens
  have hconditions : Sql.Legible (e.conditions.flatMap fun c => .fixed " AND " :: c.tokens) :=
    .flatMap (fun c hc => .fixed (by decide) (h.2 c hc).tokens) fun c _ => ⟨by simp; decide, by simp⟩
  refine hlines.append hconditions ?_
  cases e.conditions with
  | nil => simp
  | cons c rest => simp; decide

end JoinEntry

namespace JoinContext

@[simp] theorem noColon_table (s : IssueSystem) : NoColon s.table := by cases s <;> decide

@[simp] theorem noColon_keyColumn (s : IssueSystem) : NoColon s.keyColumn := by cases s <;> decide

@[simp] theorem noColon_component (s : IssueSystem) : NoColon s.component := by cases s <;> decide

@[simp] theorem noColon_mapping_commits (s : IssueSystem) : NoColon s.mapping.commits := by
  cases s <;> decide

@[simp] theorem noColon_mapping_pullRequests (s : IssueSystem) : NoColon s.mapping.pullRequests := by
  cases s <;> decide

@[simp] theorem noColon_mapping_key (s : IssueSystem) : NoColon s.mapping.key := by cases s <;> decide

attribute [local simp] table latestIngestion issueSelect eventLink JoinLine.leftTable

theorem placeholders_lines (context : JoinContext) (j : Join) :
    ∀ l ∈ context.lines j, Sql.placeholders l.tokens = [] := by
  cases j
  case commit =>
    simp only [lines, commitLines]
    split <;> simp
  case pullRequest =>
    simp only [lines, pullRequestLines]
    split <;> simp
  case issue =>
    simp only [lines, issueLines]
    cases hf : context.freshness <;> split <;> simp [hf]
  case statusHistory =>
    simp only [lines, statusLines]
    split <;> simp
  all_goals simp [lines]

theorem legible_lines {context : JoinContext} (h : NoColon context.schema) (j : Join) :
    ∀ l ∈ context.lines j, l.Legible := by
  cases j
  case commit =>
    simp only [lines, commitLines]
    split <;> simp +decide [h]
  case pullRequest =>
    simp only [lines, pullRequestLines]
    split <;> simp +decide [h]
  case issue =>
    simp only [lines, issueLines]
    cases hf : context.freshness <;> split <;> simp +decide [h, hf]
  case statusHistory =>
    simp only [lines, statusLines]
    split <;> simp +decide [h]
  all_goals simp +decide [lines, h]

end JoinContext

namespace JoinRequest

def placeholders : JoinRequest → List String
  | .held _ => []
  | .supplied _ line => Sql.placeholders line.tokens
  | .condition _ c => c.placeholders

/-- What the request hands in is written: a line goes in where its join is not there, a condition where its
join is held. -/
def Lands (r : Registry) : JoinRequest → Prop
  | .held _ => True
  | .supplied j _ => r.isJoined j = false
  | .condition j _ => r.holds j = true

def Legible : JoinRequest → Prop
  | .held _ => True
  | .supplied _ line => line.Legible
  | .condition _ c => c.Legible

end JoinRequest

namespace Registry

variable {r : Registry} {req : JoinRequest} {reqs : List JoinRequest} {name : String}

def placeholders (r : Registry) : List String := r.entries.flatMap JoinEntry.placeholders

theorem mem_placeholders_tokens (r : Registry) (name : String) :
    name ∈ Sql.placeholders r.tokens ↔ name ∈ r.placeholders := by
  have h : (r.ordered.flatMap JoinEntry.placeholders).Perm r.placeholders :=
    (List.mergeSort_perm r.entries _).flatMap_right _
  simp only [tokens, View.of_separated, List.flatMap_map, JoinEntry.placeholders_tokens]
  exact h.mem_iff

theorem placeholders_push (j : Join) (lines : List JoinLine) :
    (r.push j lines).placeholders = r.placeholders ++ lines.flatMap fun l => Sql.placeholders l.tokens := by
  simp [push, placeholders, JoinEntry.placeholders]

theorem placeholders_push_lines (j : Join) : (r.push j (r.context.lines j)).placeholders = r.placeholders := by
  rw [placeholders_push, List.flatMap_eq_nil_iff.2 (r.context.placeholders_lines j), List.append_nil]

theorem placeholders_hold (j : Join) : (r.hold j (r.context.lines j)).placeholders = r.placeholders :=
  hold_induction (P := fun s => s.placeholders = r.placeholders) rfl fun _ => placeholders_push_lines j

theorem placeholders_holdAll (joins : List Join) : (r.holdAll joins).placeholders = r.placeholders := by
  induction joins generalizing r with
  | nil => rfl
  | cons j rest ih => exact (ih (r := r.hold j (r.context.lines j))).trans (placeholders_hold j)

theorem placeholders_require (j : Join) : (r.require j).placeholders = r.placeholders := by
  unfold require
  split
  · rfl
  · have h := placeholders_hold (r := r.holdAll (needed r.context j)) j
    rwa [context_holdAll, placeholders_holdAll] at h

theorem notMem_needed (context : JoinContext) (j : Join) : j ∉ needed context j := by
  intro h
  have hd := mem_dependencies_of_needed h
  cases j <;> simp [Join.dependencies] at hd

theorem placeholders_requireLine {j : Join} {line : JoinLine} (h : r.isJoined j = false) :
    (r.requireLine j line).placeholders = r.placeholders ++ Sql.placeholders line.tokens := by
  have hj : (r.holdAll (needed r.context j)).isJoined j = false := by
    rw [Bool.eq_false_iff, Ne, isJoined_holdAll, h]
    simp [notMem_needed]
  simp [requireLine, h, hold, hj, placeholders_push, placeholders_holdAll]

theorem mem_placeholders_addCondition {j : Join} {c : Expr} (h : r.holds j = true) :
    name ∈ (r.addCondition j c).placeholders ↔ name ∈ r.placeholders ∨ name ∈ c.placeholders := by
  simp only [placeholders, addCondition, List.flatMap_map, List.mem_flatMap]
  obtain ⟨held, hm, hj⟩ := holds_iff.1 h
  constructor
  · rintro ⟨e, he, hn⟩
    split at hn
    · rcases (by simpa [JoinEntry.placeholders] using hn) with hn | hn | hn
      · exact Or.inl ⟨e, he, by simp [JoinEntry.placeholders, hn]⟩
      · exact Or.inl ⟨e, he, by simp [JoinEntry.placeholders, hn]⟩
      · exact Or.inr hn
    · exact Or.inl ⟨e, he, hn⟩
  · rintro (⟨e, he, hn⟩ | hn)
    · refine ⟨e, he, ?_⟩
      split
      · simp only [JoinEntry.placeholders, List.flatMap_append, List.mem_append] at hn ⊢
        exact hn.imp_right Or.inl
      · exact hn
    · refine ⟨held, hm, ?_⟩
      rw [if_pos hj]
      simp [JoinEntry.placeholders, hn]

theorem mem_placeholders_request (h : req.Lands r) :
    name ∈ (r.request req).placeholders ↔ name ∈ r.placeholders ∨ name ∈ req.placeholders := by
  cases req with
  | held j => simp [request, placeholders_require, JoinRequest.placeholders]
  | supplied j line => simp [request, placeholders_requireLine h, JoinRequest.placeholders]
  | condition j c => exact mem_placeholders_addCondition h

/-- Each request lands at the registry that those before it left. -/
def LandAll (r : Registry) : List JoinRequest → Prop
  | [] => True
  | req :: rest => req.Lands r ∧ LandAll (r.request req) rest

theorem landAll_append {more : List JoinRequest} (h : r.LandAll reqs) (hm : (r.requestAll reqs).LandAll more) :
    r.LandAll (reqs ++ more) := by
  induction reqs generalizing r with
  | nil => exact hm
  | cons req rest ih => exact ⟨h.1, ih h.2 hm⟩

theorem mem_placeholders_requestAll (name : String) (h : r.LandAll reqs) :
    name ∈ (r.requestAll reqs).placeholders ↔
      name ∈ r.placeholders ∨ ∃ req ∈ reqs, name ∈ req.placeholders := by
  induction reqs generalizing r with
  | nil => simp
  | cons req rest ih =>
    rw [requestAll_cons, ih h.2, mem_placeholders_request h.1, or_assoc]
    simp

def Legible (r : Registry) : Prop := ∀ e ∈ r.entries, e.Legible

theorem Legible.tokens (h : r.Legible) : Sql.Legible r.tokens := by
  refine .separated (by decide) (by decide) fun part hp => ?_
  obtain ⟨e, he, rfl⟩ := List.mem_map.1 hp
  exact (h e (List.mem_mergeSort.1 he)).tokens

theorem Legible.request (hs : NoColon r.context.schema) (h : r.Legible) (hreq : req.Legible) :
    (r.request req).Legible := by
  refine request_induction h (fun s j lines hc hl _ _ hj => ?_) fun j c hr => ?_
  · intro e he
    rcases List.mem_append.1 he with he | he
    · exact hl e he
    · rw [List.mem_singleton.1 he]
      refine ⟨?_, by simp⟩
      rcases hj with ⟨-, rfl⟩ | ⟨-, rfl⟩ | ⟨line, rfl, rfl⟩
      · exact JoinContext.legible_lines hs j
      · exact JoinContext.legible_lines hs j
      · exact List.forall_mem_singleton.2 hreq
  · subst hr
    intro e he
    obtain ⟨e', he', rfl⟩ := List.mem_map.1 he
    split
    · refine ⟨(h e' he').1, fun d hd => ?_⟩
      rcases List.mem_append.1 hd with hd | hd
      · exact (h e' he').2 d hd
      · exact List.mem_singleton.1 hd ▸ hreq
    · exact h e' he'

theorem Legible.requestAll (hs : NoColon r.context.schema) (h : r.Legible)
    (hreqs : ∀ req ∈ reqs, req.Legible) : (r.requestAll reqs).Legible := by
  induction reqs generalizing r with
  | nil => exact h
  | cons req rest ih =>
    rw [List.forall_mem_cons] at hreqs
    exact ih (by rwa [context_request]) (h.request hs hreqs.1) hreqs.2

end Registry
end LeadTime
