import LeadTime.Proofs.Registry.Reach
import LeadTime.Proofs.Registry.Closure
import LeadTime.Proofs.Sql.Text
import Mathlib

/-! What a registry is like, whatever was asked of it and in whatever order. Its joins and their names are all different
and none is the anchor's; each was put in after what it reads from, and is written after it; whoever asks for a join is
given the name that it keeps, and to ask again changes nothing. -/
namespace LeadTime

open Sql

/-- Each join stands after what it reads from directly, unless that is the anchor. -/
def Join.DependenciesFirst (a : Anchor) (joins : List Join) : Prop :=
  ∀ before j after, joins = before ++ j :: after → ∀ d, j.dependency? = some d → d = a.join ∨ d ∈ before

namespace Join.DependenciesFirst

variable {a : Anchor} {joins : List Join} {j : Join}

theorem nil : DependenciesFirst a [] := by
  intro before j after h
  simp at h

theorem concat (h : DependenciesFirst a joins) (hj : ∀ d, j.dependency? = some d → d = a.join ∨ d ∈ joins) :
    DependenciesFirst a (joins ++ [j]) := by
  intro before i after heq d hd
  rcases List.eq_nil_or_concat' after with rfl | ⟨after, last, rfl⟩
  · obtain ⟨rfl, hi⟩ := List.append_inj' heq rfl
    obtain rfl := List.singleton_inj.1 hi
    exact hj d hd
  · have hlast : joins ++ [j] = (before ++ i :: after) ++ [last] := by simpa using heq
    exact h before i after (List.append_inj' hlast rfl).1 d hd

theorem of_pairwise (hp : joins.Pairwise fun i j => i.ranksBefore j = true)
    (hd : ∀ j ∈ joins, ∀ d, j.dependency? = some d → d = a.join ∨ d ∈ joins) : DependenciesFirst a joins := by
  rintro before j after rfl d hdep
  refine (hd j (by simp) d hdep).imp_right fun hm => ?_
  have hrank : j.ranksBefore d = false := ranksBefore_dependency hdep
  have hself : j.ranksBefore j = true := by simpa using ranksBefore_total j j
  have hafter : ∀ i ∈ after, j.ranksBefore i = true := (List.pairwise_cons.1 (List.pairwise_append.1 hp).2.1).1
  rcases List.mem_append.1 hm with hm | hm
  · exact hm
  · rcases List.mem_cons.1 hm with rfl | hm
    · rw [hself] at hrank
      cases hrank
    · rw [hafter d hm] at hrank
      cases hrank

end Join.DependenciesFirst

theorem JoinEntry.text_eq (e : JoinEntry) : e.text = "\n".intercalate (e.lines.map fun line => Sql.text line.tokens) ++
    String.join (e.conditions.map fun c => " AND " ++ c.text) := by
  have hconditions (conditions : List Expr) : Sql.text (conditions.flatMap fun c => .fixed " AND " :: c.tokens) =
      String.join (conditions.map fun c => " AND " ++ c.text) := by
    induction conditions with
    | nil => rfl
    | cons c rest ih => rw [List.flatMap_cons, text_append, ih, List.map_cons, String.join_cons, text_cons, Token.text, Expr.text]
  rw [text, tokens, text_append, text_separated, hconditions, List.map_map]
  rfl

namespace Registry

variable {r : Registry} {j d : Join} {line : JoinLine} {req : JoinRequest} {reqs : List JoinRequest}

/-- A join that can be read is not put in again, whatever line comes with it. -/
theorem request_eq_self (h : r.isJoined j = true) (hreq : req.asked? = some j) : r.request req = r := by
  cases req with
  | held i =>
    cases hreq
    simp [request, require, h]
  | supplied i line =>
    cases hreq
    simp [request, requireLine, h]
  | condition i c => cases hreq

theorem answer_eq (r : Registry) (j : Join) : r.answer j = j.tableAlias := by
  unfold answer tableAlias?
  split <;> rfl

/-- What a join needs is what it reads from directly, after what that needs in turn, as far as the anchor. -/
theorem needed_eq (context : JoinContext) (j : Join) :
    needed context j = (j.dependency?.map fun d =>
      if d = context.anchor.join then [] else needed context d ++ [d]).getD [] := by
  rcases anchor_join context.anchor with ha | ha <;>
    cases j <;> simp [needed, Join.dependencies, Join.dependency?, ha]

theorem notMem_needed_self (context : JoinContext) (j : Join) : j ∉ needed context j := by
  intro h
  have hd := mem_dependencies_of_needed h
  cases j <;> simp [Join.dependencies] at hd

theorem holdAll_append (joins more : List Join) : r.holdAll (joins ++ more) = (r.holdAll joins).holdAll more :=
  List.foldl_append

theorem holdAll_singleton (r : Registry) (j : Join) : r.holdAll [j] = r.hold j (r.context.lines j) := rfl

theorem hold_eq_self {lines : List JoinLine} (h : r.isJoined j = true) : r.hold j lines = r := if_pos h

theorem holdAll_eq_self {joins : List Join} (h : ∀ j ∈ joins, r.isJoined j = true) : r.holdAll joins = r := by
  induction joins with
  | nil => rfl
  | cons j rest ih =>
    rw [List.forall_mem_cons] at h
    have hfirst : r.holdAll (j :: rest) = (r.hold j (r.context.lines j)).holdAll rest := rfl
    rw [hfirst, hold_eq_self h.1, ih h.2]

theorem Supported.isJoined_needed (h : r.Supported) (hj : r.isJoined j = true) (hne : j ≠ r.context.anchor.join) :
    ∀ d ∈ needed r.context j, r.isJoined d = true := by
  induction hn : (needed r.context j).length using Nat.strong_induction_on generalizing j with
  | _ n ih =>
    subst hn
    cases hdep : j.dependency? with
    | none =>
      intro d hd
      rw [needed_eq, hdep] at hd
      cases hd
    | some d =>
      have hd : r.isJoined d = true := h j d (holds_of_isJoined hj hne) hdep
      rw [needed_eq, hdep, Option.map_some, Option.getD_some] at ih ⊢
      split
      · simp
      · rename_i hda
        rw [if_neg hda] at ih
        intro i hi
        rcases List.mem_append.1 hi with hi | hi
        · exact ih _ (by simp) hd hda rfl i hi
        · rwa [List.mem_singleton.1 hi]

theorem Supported.holdAll_needed (h : r.Supported) (j : Join) :
    r.holdAll (needed r.context j) = j.dependency?.elim r r.require := by
  rw [needed_eq]
  cases j.dependency? with
  | none => rfl
  | some d =>
    rw [Option.map_some, Option.getD_some, Option.elim_some]
    by_cases hda : d = r.context.anchor.join
    · have hd : r.isJoined d = true := hda ▸ isJoined_anchor
      rw [if_pos hda]
      exact (if_pos hd).symm
    · rw [if_neg hda, holdAll_append, holdAll_singleton, context_holdAll]
      unfold require
      split
      · rename_i hd
        rw [holdAll_eq_self (h.isJoined_needed hd hda), hold_eq_self hd]
      · rfl

theorem Supported.hold_needed (h : r.Supported) (hj : r.isJoined j = false) (lines : List JoinLine) :
    (r.holdAll (needed r.context j)).hold j lines = (j.dependency?.elim r r.require).push j lines := by
  rw [← h.holdAll_needed]
  have hnot : ¬ (r.holdAll (needed r.context j)).isJoined j = true := by
    rw [isJoined_holdAll, hj]
    simp [notMem_needed_self]
  exact if_neg hnot

theorem Supported.require_eq (h : r.Supported) (hj : r.isJoined j = false) :
    r.require j = (j.dependency?.elim r r.require).push j (r.context.lines j) :=
  (if_neg (Bool.eq_false_iff.1 hj)).trans (h.hold_needed hj _)

theorem Supported.requireLine_eq (h : r.Supported) (hj : r.isJoined j = false) (line : JoinLine) :
    r.requireLine j line = (j.dependency?.elim r r.require).push j [line] :=
  (if_neg (Bool.eq_false_iff.1 hj)).trans (h.hold_needed hj _)

structure Standing (r : Registry) : Prop where
  nodup : (r.entries.map (·.join)).Nodup
  besides : ∀ j ∈ r.entries.map (·.join), j ≠ r.context.anchor.join
  inserted : Join.DependenciesFirst r.context.anchor (r.entries.map (·.join))

theorem standing_empty (context : JoinContext) : (empty context).Standing :=
  ⟨List.nodup_nil, by simp [empty], Join.DependenciesFirst.nil⟩

theorem Standing.push {lines : List JoinLine} (h : r.Standing) (hj : r.isJoined j = false)
    (hneeded : ∀ d ∈ needed r.context j, r.isJoined d = true) : (r.push j lines).Standing where
  nodup := nodup_push h.nodup hj
  besides i hi := by
    rw [joins_push] at hi
    rcases List.mem_append.1 hi with hi | hi
    · exact h.besides i hi
    · have hne : j ≠ r.context.anchor.join := ne_anchor_of_notJoined hj
      rwa [List.mem_singleton.1 hi]
  inserted := by
    rw [joins_push]
    refine h.inserted.concat fun d hd => ?_
    rw [mem_joins_iff, ← isJoined_iff]
    rcases mem_needed_of_dependency r.context hd with rfl | hd
    · exact isJoined_anchor
    · exact hneeded d hd

theorem Standing.addCondition (h : r.Standing) (c : Expr) : (r.addCondition j c).Standing := by
  refine ⟨?_, ?_, ?_⟩ <;> rw [joins_addCondition]
  · exact h.nodup
  · exact h.besides
  · exact h.inserted

theorem Standing.request (h : r.Standing) : (r.request req).Standing := by
  refine request_induction h (fun s j lines hc hs hj hneeded _ => ?_) fun j c _ => h.addCondition c
  rw [← hc] at hneeded
  exact hs.push hj hneeded

theorem Standing.requestAll (h : r.Standing) : (r.requestAll reqs).Standing := by
  induction reqs generalizing r with
  | nil => exact h
  | cons req rest ih => exact ih h.request

theorem ordered_perm (r : Registry) : r.ordered.Perm r.entries := List.mergeSort_perm _ _

theorem mem_joins_ordered : j ∈ r.ordered.map (·.join) ↔ r.holds j = true := by
  rw [(r.ordered_perm.map _).mem_iff, mem_joins_iff]

theorem pairwise_joins_ordered (r : Registry) :
    (r.ordered.map (·.join)).Pairwise fun i j => i.ranksBefore j = true :=
  List.pairwise_map.2 r.pairwise_ordered

theorem Supported.dependenciesFirst_ordered (h : r.Supported) :
    Join.DependenciesFirst r.context.anchor (r.ordered.map (·.join)) := by
  refine Join.DependenciesFirst.of_pairwise r.pairwise_joins_ordered fun j hj d hd => ?_
  rw [mem_joins_ordered] at hj ⊢
  exact isJoined_iff.1 (h j d hj hd)

theorem text_eq (r : Registry) : r.text = "\n".intercalate (r.ordered.map JoinEntry.text) := by
  rw [text, tokens, text_separated, List.map_map]
  rfl

/-- The registry of a context, after these requests. -/
structure Represents (context : JoinContext) (reqs : List JoinRequest) (r : Registry) : Prop where
  /-- No join is held twice, and no name given twice. -/
  joins : (r.entries.map (·.join)).Nodup
  names : (r.entries.map fun e => e.join.tableAlias).Nodup
  /-- The anchor is not held, and its name is left to it. -/
  anchor : ∀ e ∈ r.entries, e.join ≠ context.anchor.join ∧ e.join.tableAlias ≠ context.anchor.tableAlias
  /-- Joins were put in after what they read from. -/
  inserted : Join.DependenciesFirst context.anchor (r.entries.map (·.join))
  /-- Whoever asked for a join was given the name under which it is read from then on. -/
  answered : ∀ before req after j, reqs = before ++ req :: after → req.asked? = some j →
    r.tableAlias? j = some (((empty context).requestAll before).answer j)
  /-- To ask once more for a join changes nothing, whatever line comes with it. -/
  repeated : ∀ j ∈ asked reqs, ∀ req, req.asked? = some j → r.request req = r
  /-- A new join is put in once what it reads from directly was asked for. -/
  recursion : ∀ j, r.isJoined j = false →
    r.require j = (j.dependency?.elim r r.require).push j (context.lines j) ∧
      ∀ line, r.requireLine j line = (j.dependency?.elim r r.require).push j [line]
  /-- The chain writes each entry once, one below the other, after what its join reads from. -/
  written : r.text = "\n".intercalate (r.ordered.map JoinEntry.text)
  /-- An entry is written line by line, and its conditions after its last line. -/
  entries : ∀ e ∈ r.entries, e.text = "\n".intercalate (e.lines.map fun line => Sql.text line.tokens) ++
    String.join (e.conditions.map fun c => " AND " ++ c.text)
  once : r.ordered.Perm r.entries
  ordered : Join.DependenciesFirst context.anchor (r.ordered.map (·.join))

/-- Whatever is asked of a registry that was empty, it holds each join once, after what the join reads from. -/
theorem represents_requestAll (context : JoinContext) (reqs : List JoinRequest) :
    Represents context reqs ((empty context).requestAll reqs) := by
  have hstanding : ((empty context).requestAll reqs).Standing := (standing_empty context).requestAll
  have hsupported : ((empty context).requestAll reqs).Supported := (supported_empty context).requestAll
  have hcontext : ((empty context).requestAll reqs).context = context := context_requestAll
  have hinserted := hstanding.inserted
  have hbesides := hstanding.besides
  have hordered := hsupported.dependenciesFirst_ordered
  rw [hcontext] at hinserted hbesides hordered
  refine ⟨hstanding.nodup, ?_, fun e he => ?_, hinserted, ?_, fun j hj req hreq => ?_, fun j hj => ?_, text_eq _,
    fun e _ => e.text_eq, ordered_perm _, hordered⟩
  · simpa [Function.comp_def] using hstanding.nodup.map Join.tableAlias_injective
  · have hne : e.join ≠ context.anchor.join := hbesides _ (List.mem_map_of_mem he)
    rw [← Anchor.tableAlias_join, Join.tableAlias_injective.ne_iff]
    exact ⟨hne, hne⟩
  · rintro before req after j rfl hreq
    have hj : j ∈ asked (before ++ req :: after) := List.mem_filterMap.2 ⟨req, by simp, hreq⟩
    rw [answer_eq, tableAlias?, if_pos (isJoined_of_mem_asked hj)]
  · exact request_eq_self (isJoined_of_mem_asked hj) hreq
  · have hrequire := hsupported.require_eq hj
    rw [hcontext] at hrequire
    exact ⟨hrequire, hsupported.requireLine_eq hj⟩

end Registry
end LeadTime
