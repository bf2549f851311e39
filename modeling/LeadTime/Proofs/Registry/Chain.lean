import LeadTime.Proofs.Registry.Growth
import LeadTime.Proofs.Sql.Closed
import Mathlib

/-! The chain that a registry writes. Its joins are all different and none is the anchor; each writes lines that give
the names of its join and no others, so that the chain names each table once, and names what can be read. -/
namespace LeadTime

open Sql

namespace Join

theorem tableAlias_injective : Function.Injective tableAlias := by
  intro a b h
  have h' := congrArg String.toList h
  cases a <;> cases b <;> simp [tableAlias, eq_comm (a := [])] at h h' ⊢ <;> exact h

def linkAliases : List String := ["m", "cprm", "prjm"]

theorem tableAlias_notMem_linkAliases (j : Join) : j.tableAlias ∉ linkAliases := by
  intro h
  cases j <;> simp [tableAlias, linkAliases] at h
  all_goals rcases h with h | h | h <;> simpa using congrArg String.toList h

end Join

namespace JoinContext

variable {context : JoinContext} {j : Join}

def links (context : JoinContext) : Join → List String
  | .commit => if context.anchor.isIssue then ["m"] else ["cprm"]
  | .pullRequest => if context.prIssueCorrelation then ["prjm", "cprm"] else ["cprm"]
  | .issue => if context.prIssueCorrelation then ["prjm", "m"] else ["m"]
  | _ => []

def aliases (context : JoinContext) (j : Join) : List String := context.links j ++ [j.tableAlias]

theorem links_subset (context : JoinContext) (j : Join) : context.links j ⊆ Join.linkAliases := by
  cases j <;> simp only [links, List.nil_subset] <;> split <;> simp [Join.linkAliases]

theorem nodup_aliases (context : JoinContext) (j : Join) : (context.aliases j).Nodup := by
  refine List.nodup_append'.2 ⟨?_, by simp, ?_⟩
  · cases j <;> simp only [links, List.nodup_nil] <;> split <;> decide
  · rw [List.disjoint_singleton]
    exact fun h => j.tableAlias_notMem_linkAliases (context.links_subset j h)

theorem mem_aliases_iff {i : Join} : i.tableAlias ∈ context.aliases j ↔ i = j := by
  rw [aliases, List.mem_append, List.mem_singleton, Join.tableAlias_injective.eq_iff, or_iff_right]
  exact fun h => i.tableAlias_notMem_linkAliases (context.links_subset j h)

theorem disjoint_links {i : Join} (hij : i ≠ j) (hi : i ≠ context.anchor.join) (hj : j ≠ context.anchor.join) :
    (context.links i).Disjoint (context.links j) := by
  cases ha : context.anchor.isIssue <;> cases hc : context.prIssueCorrelation <;>
    cases i <;> cases j <;> simp_all [links, Anchor.join]

theorem disjoint_aliases {i : Join} (hij : i ≠ j) (hi : i ≠ context.anchor.join)
    (hj : j ≠ context.anchor.join) : (context.aliases i).Disjoint (context.aliases j) := by
  have hl := disjoint_links hij hi hj
  intro name hni hnj
  rcases List.mem_append.1 hni with hni | hni <;> rcases List.mem_append.1 hnj with hnj | hnj
  · exact hl hni hnj
  · rw [List.mem_singleton.1 hnj] at hni
    exact j.tableAlias_notMem_linkAliases (context.links_subset i hni)
  · rw [List.mem_singleton.1 hni] at hnj
    exact i.tableAlias_notMem_linkAliases (context.links_subset j hnj)
  · rw [List.mem_singleton.1 hni, List.mem_singleton] at hnj
    exact hij (Join.tableAlias_injective hnj)

theorem anchor_notMem_aliases (hj : j ≠ context.anchor.join) :
    context.anchor.tableAlias ∉ context.aliases j := by
  rw [← Anchor.tableAlias_join, mem_aliases_iff]
  exact fun h => hj h.symm

end JoinContext

/-- The lines of an entry are those of its join: they give the join's names, its own name last, each on a condition. -/
structure JoinEntry.Shaped (context : JoinContext) (e : JoinEntry) : Prop where
  aliases : Sql.aliases e.lines = context.aliases e.join
  last : e.lines.getLast?.bind JoinLine.introduced? = some e.join.tableAlias
  conditions : ∀ l ∈ e.lines, l.conditions ≠ []

namespace JoinContext

variable {context : JoinContext} {j : Join}

section Lines

attribute [local simp] table latestIngestion eventLink JoinLine.leftTable JoinLine.introduced? JoinLine.conditions
  Join.tableAlias Sql.aliases

theorem shaped_lines (h : j.isSupplied = false) : JoinEntry.Shaped context ⟨j, context.lines j, []⟩ := by
  cases j
  case commit =>
    simp only [lines, commitLines]
    cases ha : context.anchor.isIssue <;> constructor <;> simp [aliases, links, ha]
  case pullRequest =>
    simp only [lines, pullRequestLines]
    cases hc : context.prIssueCorrelation <;> constructor <;> simp [aliases, links, hc]
  case issue =>
    simp only [lines, issueLines]
    cases hc : context.prIssueCorrelation <;> constructor <;>
      simp [aliases, links, hc]
  case statusHistory =>
    simp only [lines, statusLines]
    split <;> constructor <;> simp [aliases, links]
  case sprint | label | jobRun | genericEvent => simp [Join.isSupplied] at h
  all_goals constructor <;> simp [aliases, links, lines]

end Lines

end JoinContext

def JoinEntry.written (e : JoinEntry) : List JoinLine := extendLast e.lines e.conditions

/-- The request gives its join what the join takes: a line where the registry has none of its own, which gives the
join's name on a condition. -/
def JoinRequest.Proper : JoinRequest → Prop
  | .held j => j.isSupplied = false
  | .supplied j line => j.isSupplied = true ∧ line.introduced? = some j.tableAlias ∧ line.conditions ≠ []
  | .condition _ _ => True

namespace Registry

variable {r : Registry} {j d : Join} {req : JoinRequest} {reqs : List JoinRequest}

/-- The joins of the registry are all different, none is the anchor, and their lines are theirs. -/
structure Formed (r : Registry) : Prop where
  nodup : (r.entries.map (·.join)).Nodup
  anchor : r.holds r.context.anchor.join = false
  shaped : ∀ e ∈ r.entries, e.Shaped r.context

theorem formed_empty (context : JoinContext) : (empty context).Formed :=
  ⟨by simp [empty], by simp [empty, holds], by simp [empty]⟩

theorem Formed.push {lines : List JoinLine} (h : r.Formed) (hj : r.isJoined j = false)
    (hs : JoinEntry.Shaped r.context ⟨j, lines, []⟩) : (r.push j lines).Formed where
  nodup := nodup_push h.nodup hj
  anchor := by
    rw [Bool.eq_false_iff] at hj ⊢
    intro ha
    rcases holds_push.1 ha with ha | ha
    · rw [context_push, h.anchor] at ha
      cases ha
    · exact hj (isJoined_iff.2 (Or.inl ha.symm))
  shaped e he := by
    rcases List.mem_append.1 he with he | he
    · exact h.shaped e he
    · rw [List.mem_singleton.1 he]
      exact hs

theorem Formed.addCondition (h : r.Formed) (c : Expr) : (r.addCondition j c).Formed where
  nodup := by
    rw [joins_addCondition]
    exact h.nodup
  anchor := by rw [holds_addCondition]; exact h.anchor
  shaped e he := by
    obtain ⟨e, hm, rfl⟩ := List.mem_map.1 he
    have hs := h.shaped e hm
    split
    · exact ⟨hs.aliases, hs.last, hs.conditions⟩
    · exact hs

theorem isSupplied_of_mem_needed {context : JoinContext} (h : d ∈ needed context j) : d.isSupplied = false := by
  have hd := mem_dependencies_of_needed h
  cases j <;> simp [Join.dependencies] at hd <;> rcases hd with rfl | rfl <;> rfl

theorem shaped_supplied {context : JoinContext} {line : JoinLine} (h : (JoinRequest.supplied j line).Proper) :
    JoinEntry.Shaped context ⟨j, [line], []⟩ := by
  obtain ⟨hj, hi, hc⟩ := h
  have hl : context.links j = [] := by cases j <;> simp [Join.isSupplied] at hj <;> rfl
  exact ⟨by simp [aliases_cons, hi, JoinContext.aliases, hl], by simpa using hi, by simpa using hc⟩

theorem shaped_of_putsIn {context : JoinContext} {lines : List JoinLine} (hreq : req.Proper)
    (h : req.PutsIn context j lines) : JoinEntry.Shaped context ⟨j, lines, []⟩ := by
  rcases h with ⟨hn, rfl⟩ | ⟨rfl, rfl⟩ | ⟨line, rfl, rfl⟩
  · exact JoinContext.shaped_lines (isSupplied_of_mem_needed hn)
  · exact JoinContext.shaped_lines hreq
  · exact shaped_supplied hreq

theorem Formed.request (h : r.Formed) (hreq : req.Proper) : (r.request req).Formed := by
  refine request_induction h (fun s j lines hc hs hj _ hlines => hs.push hj ?_) fun j c _ => h.addCondition c
  rw [hc]
  exact shaped_of_putsIn hreq hlines

theorem Formed.requestAll (h : r.Formed) (hreqs : ∀ req ∈ reqs, req.Proper) : (r.requestAll reqs).Formed := by
  induction reqs generalizing r with
  | nil => exact h
  | cons req rest ih =>
    rw [List.forall_mem_cons] at hreqs
    exact ih (h.request hreqs.1) hreqs.2

def lines (r : Registry) : List JoinLine := r.ordered.flatMap JoinEntry.written

theorem mem_ordered {e : JoinEntry} : e ∈ r.ordered ↔ e ∈ r.entries := List.mem_mergeSort

theorem Formed.tokens_eq (h : r.Formed) : r.tokens = separated "\n" (r.lines.map JoinLine.tokens) := by
  have hne : ∀ e ∈ r.entries, e.lines ≠ [] := by
    intro e he hn
    have hl := (h.shaped e he).last
    simp [hn] at hl
  have hentry : ∀ e ∈ r.ordered, e.tokens = separated "\n" (e.written.map JoinLine.tokens) := fun e he =>
    (tokens_extendLast (hne e (mem_ordered.1 he)) (h.shaped e (mem_ordered.1 he)).conditions _).symm
  have hwritten : ∀ e ∈ r.ordered, e.written.map JoinLine.tokens ≠ [] := by
    intro e he
    have := hne e (mem_ordered.1 he)
    unfold JoinEntry.written
    cases hl : e.lines with
    | nil => exact absurd hl this
    | cons l rest => cases rest <;> simp [extendLast]
  rw [tokens, lines, List.map_flatMap, ← separated_flatMap hwritten, List.map_congr_left hentry]

theorem Formed.conditions_lines (h : r.Formed) : ∀ line ∈ r.lines, line.conditions ≠ [] := by
  intro line hm
  obtain ⟨e, he, hm⟩ := List.mem_flatMap.1 hm
  have hshaped := h.shaped e (mem_ordered.1 he)
  rcases mem_extendLast hm with hl | ⟨last, hlast, rfl⟩
  · exact hshaped.conditions line hl
  · have hne := hshaped.conditions last hlast
    cases last with
    | join side source as on => simpa [JoinLine.extend, JoinLine.conditions] using fun hon => absurd hon hne
    | verbatim text => exact absurd rfl hne

/-- All names of the chain: the anchor's, and those that its lines give. -/
def aliases (r : Registry) : List String := r.context.anchor.tableAlias :: Sql.aliases r.lines

theorem Formed.aliases_lines (h : r.Formed) : Sql.aliases r.lines = r.ordered.flatMap fun e => r.context.aliases e.join := by
  rw [lines, aliases_flatMap]
  have hentry : ∀ e ∈ r.ordered, Sql.aliases e.written = r.context.aliases e.join := fun e he => by
    rw [JoinEntry.written, aliases_extendLast]
    exact (h.shaped e (mem_ordered.1 he)).aliases
  exact List.flatMap_congr hentry

theorem Formed.nodup_aliases (h : r.Formed) : r.aliases.Nodup := by
  have hanchor : ∀ e ∈ r.ordered, e.join ≠ r.context.anchor.join := by
    intro e he hj
    have ha := holds_iff.2 ⟨e, mem_ordered.1 he, hj⟩
    rw [h.anchor] at ha
    cases ha
  have hnodup : (r.ordered.map (·.join)).Nodup :=
    ((List.mergeSort_perm r.entries _).map _).nodup_iff.2 h.nodup
  rw [aliases, h.aliases_lines, List.nodup_cons]
  constructor
  · intro hm
    obtain ⟨e, he, hn⟩ := List.mem_flatMap.1 hm
    exact JoinContext.anchor_notMem_aliases (hanchor e he) hn
  · rw [List.nodup_flatMap]
    refine ⟨fun e _ => r.context.nodup_aliases e.join, ?_⟩
    rw [List.Nodup, List.pairwise_map] at hnodup
    exact hnodup.imp_of_mem fun ha hb hne => JoinContext.disjoint_aliases hne (hanchor _ ha) (hanchor _ hb)

theorem Formed.mem_aliases_iff (h : r.Formed) : j.tableAlias ∈ r.aliases ↔ r.isJoined j = true := by
  rw [aliases, h.aliases_lines, List.mem_cons, isJoined_iff, holds_iff]
  refine or_congr ?_ ?_
  · rw [← Anchor.tableAlias_join, Join.tableAlias_injective.eq_iff]
  · simp only [List.mem_flatMap, mem_ordered]
    refine exists_congr fun e => and_congr_right fun _ => ?_
    rw [JoinContext.mem_aliases_iff, eq_comm]

theorem Formed.mem_aliases (h : r.Formed) (hj : r.isJoined j = true) : j.tableAlias ∈ r.aliases :=
  h.mem_aliases_iff.2 hj

end Registry
end LeadTime
