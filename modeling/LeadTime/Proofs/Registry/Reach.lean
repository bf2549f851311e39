import LeadTime.Proofs.Registry.Growth
import Mathlib

/-! Which joins a registry holds in the end. Each join that is asked for is there with all that it reads from, as far as
the anchor, and nothing else ever is: the joins that are held are those besides the anchor that can be reached from
what was asked for. -/
namespace LeadTime

open Sql

/-- The join that the request asks for; a condition asks for none. -/
def JoinRequest.asked? : JoinRequest → Option Join
  | .held j | .supplied j _ => some j
  | .condition _ _ => none

def Registry.asked (reqs : List JoinRequest) : List Join := reqs.filterMap JoinRequest.asked?

/-- The joins that are reached from seeds by what joins read from directly. The anchor reads from nothing, since the
chain starts at it. -/
inductive Join.Reached (a : Anchor) (seeds : List Join) : Join → Prop where
  | seed {j : Join} (h : j ∈ seeds) : Reached a seeds j
  | dependency {j d : Join} (h : Reached a seeds j) (besides : j ≠ a.join) (direct : j.dependency? = some d) :
    Reached a seeds d

namespace Registry

variable {r : Registry} {j d : Join} {req : JoinRequest} {reqs : List JoinRequest} {seeds : List Join}

@[simp] theorem asked_append (reqs more : List JoinRequest) : asked (reqs ++ more) = asked reqs ++ asked more :=
  List.filterMap_append

theorem reached_of_mem_needed {context : JoinContext} (hj : Join.Reached context.anchor seeds j)
    (besides : j ≠ context.anchor.join) (h : d ∈ needed context j) : Join.Reached context.anchor seeds d := by
  -- What is needed is the direct dependency, which is not the anchor, or the dependency of that one.
  have hstep : ∃ e, j.dependency? = some e ∧ (d = e ∨ e ≠ context.anchor.join ∧ e.dependency? = some d) := by
    rcases anchor_join context.anchor with ha | ha <;>
      cases j <;> simp [needed, Join.dependencies, Join.dependency?, ha] at h ⊢ <;> tauto
  obtain ⟨e, he, hd⟩ := hstep
  have hreached : Join.Reached context.anchor seeds e := .dependency hj besides he
  rcases hd with rfl | ⟨hne, hd⟩
  · exact hreached
  · exact .dependency hreached hne hd

def HoldsReached (seeds : List Join) (r : Registry) : Prop :=
  ∀ j, r.holds j = true → j ≠ r.context.anchor.join ∧ Join.Reached r.context.anchor seeds j

theorem HoldsReached.hold {lines : List JoinLine} (h : r.HoldsReached seeds)
    (hj : Join.Reached r.context.anchor seeds j) : (r.hold j lines).HoldsReached seeds := by
  refine hold_induction (P := fun s => s.HoldsReached seeds) h fun hn d hd => ?_
  rcases holds_push.1 hd with hd | rfl
  · exact h d hd
  · have besides : d ≠ r.context.anchor.join := ne_anchor_of_notJoined hn
    exact ⟨besides, hj⟩

theorem HoldsReached.holdAll {joins : List Join} (h : r.HoldsReached seeds)
    (hjoins : ∀ j ∈ joins, Join.Reached r.context.anchor seeds j) : (r.holdAll joins).HoldsReached seeds := by
  induction joins generalizing r with
  | nil => exact h
  | cons j rest ih =>
    rw [List.forall_mem_cons] at hjoins
    refine ih (h.hold hjoins.1) ?_
    rw [context_hold]
    exact hjoins.2

/-- Asking for a join puts in nothing but what can be reached from it. -/
theorem HoldsReached.request (h : r.HoldsReached seeds) (hreq : ∀ j, req.asked? = some j → j ∈ seeds) :
    (r.request req).HoldsReached seeds := by
  have hput (j : Join) (lines : List JoinLine) (hj : j ∈ seeds) (hn : r.isJoined j = false) :
      ((r.holdAll (needed r.context j)).hold j lines).HoldsReached seeds := by
    have hall : (r.holdAll (needed r.context j)).HoldsReached seeds :=
      h.holdAll fun d hd => reached_of_mem_needed (.seed hj) (ne_anchor_of_notJoined hn) hd
    exact hall.hold (.seed hj)
  cases req with
  | held j =>
    simp only [Registry.request, require]
    split
    · exact h
    · rename_i hn
      exact hput j _ (hreq j rfl) (by simpa using hn)
  | supplied j line =>
    simp only [Registry.request, requireLine]
    split
    · exact h
    · rename_i hn
      exact hput j _ (hreq j rfl) (by simpa using hn)
  | condition j c =>
    intro d hd
    rw [Registry.request, holds_addCondition] at hd
    exact h d hd

theorem HoldsReached.requestAll (h : r.HoldsReached seeds) (hreqs : asked reqs ⊆ seeds) :
    (r.requestAll reqs).HoldsReached seeds := by
  induction reqs generalizing r with
  | nil => exact h
  | cons req rest ih =>
    have hhead : ∀ j, req.asked? = some j → j ∈ seeds := fun j hj =>
      hreqs (List.mem_filterMap.2 ⟨req, List.mem_cons_self, hj⟩)
    refine ih (h.request hhead) fun j hj => hreqs ?_
    obtain ⟨req', hm, hj⟩ := List.mem_filterMap.1 hj
    exact List.mem_filterMap.2 ⟨req', List.mem_cons_of_mem _ hm, hj⟩

/-- What a held join reads from directly can be read. -/
def Supported (r : Registry) : Prop :=
  ∀ j d, r.holds j = true → j.dependency? = some d → r.isJoined d = true

theorem supported_empty (context : JoinContext) : (empty context).Supported := fun j d hj => by
  simp [empty, holds] at hj

theorem Supported.request (h : r.Supported) : (r.request req).Supported := by
  refine request_induction (P := Supported) h (fun s j lines hc hs _ hneeded _ i d hi hd => ?_)
    fun j c _ i d hi hd => ?_
  · rw [isJoined_push]
    rcases holds_push.1 hi with hi | rfl
    · exact Or.inl (hs i d hi hd)
    · refine Or.inl ?_
      rcases mem_needed_of_dependency r.context hd with rfl | hd
      · rw [← hc]
        exact isJoined_anchor
      · exact hneeded d hd
  · rw [holds_addCondition] at hi
    rw [isJoined_addCondition]
    exact h i d hi hd

theorem Supported.requestAll (h : r.Supported) : (r.requestAll reqs).Supported := by
  induction reqs generalizing r with
  | nil => exact h
  | cons req rest ih => exact ih h.request

theorem isJoined_of_mem_asked (h : j ∈ asked reqs) : (r.requestAll reqs).isJoined j = true := by
  obtain ⟨req, hm, hj⟩ := List.mem_filterMap.1 h
  cases req with
  | held i =>
    cases hj
    exact isJoined_of_mem_held hm
  | supplied i line =>
    cases hj
    exact isJoined_of_mem_supplied hm
  | condition i c => cases hj

/-- A registry that started empty holds exactly the joins besides the anchor that are reached from those asked for. -/
theorem holds_requestAll_empty_iff {context : JoinContext} :
    ((empty context).requestAll reqs).holds j = true ↔
      j ≠ context.anchor.join ∧ Join.Reached context.anchor (asked reqs) j := by
  have hcontext : ((empty context).requestAll reqs).context = context := context_requestAll
  constructor
  · have hempty : (empty context).HoldsReached (asked reqs) := fun j hj => by simp [empty, holds] at hj
    have hall := hempty.requestAll (List.Subset.refl (asked reqs)) j
    rwa [hcontext] at hall
  · rintro ⟨besides, hreached⟩
    have hsupported : ((empty context).requestAll reqs).Supported := (supported_empty context).requestAll
    have hjoined : ((empty context).requestAll reqs).isJoined j = true := by
      clear besides
      induction hreached with
      | seed h => exact isJoined_of_mem_asked h
      | dependency _ besides direct ih =>
        exact hsupported _ _ (holds_of_isJoined ih (by rwa [hcontext])) direct
    exact holds_of_isJoined hjoined (by rwa [hcontext])

end Registry
end LeadTime
