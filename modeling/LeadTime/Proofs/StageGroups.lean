import LeadTime.Proofs.Pipeline
import Mathlib

/-! The stages of a pipeline, group by group. A group holds the stages that are listed for it in ascending order, and
those of one order as they are listed. One stage alone can be left out: the fixed one that a commit takes the place of,
which is the first of the least order. -/
namespace LeadTime

open Sql

namespace Pipeline

/-- The group is what is listed, in ascending order; stages of one order stay as they are listed. -/
structure Sorts (listed group : List Stage) : Prop where
  perm : group.Perm listed
  ascending : group.Pairwise fun a b => a.order ≤ b.order
  stable : ∀ order, (group.filter fun s => s.order = order) = listed.filter fun s => s.order = order

theorem sorts_sortedGroup (listed : List Stage) : Sorts listed (sortedGroup listed) := by
  have htrans (a b c : Stage) (hab : decide (a.order ≤ b.order) = true) (hbc : decide (b.order ≤ c.order) = true) :
      decide (a.order ≤ c.order) = true :=
    decide_eq_true (Int32.le_trans (of_decide_eq_true hab) (of_decide_eq_true hbc))
  have htotal (a b : Stage) : (decide (a.order ≤ b.order) || decide (b.order ≤ a.order)) = true := by
    simpa using Int32.le_total a.order b.order
  have hperm : (sortedGroup listed).Perm listed := List.mergeSort_perm _ _
  refine ⟨hperm, (List.pairwise_mergeSort htrans htotal listed).imp of_decide_eq_true, fun order => ?_⟩
  -- Stages of one order are in ascending order as they are listed, so that sorting leaves them a sublist.
  have hlisted : (listed.filter fun s => s.order = order).Pairwise fun a b => decide (a.order ≤ b.order) = true := by
    refine List.pairwise_of_forall_mem_list fun a ha b hb => ?_
    have hsame : a.order = b.order :=
      (of_decide_eq_true (List.mem_filter.1 ha).2).trans (of_decide_eq_true (List.mem_filter.1 hb).2).symm
    exact decide_eq_true (hsame ▸ Int32.le_refl _)
  have hsub : (listed.filter fun s => s.order = order).Sublist (sortedGroup listed) :=
    List.sublist_mergeSort htrans htotal hlisted List.filter_sublist
  have hkept := hsub.filter fun s => s.order = order
  rw [List.filter_filter] at hkept
  simp only [Bool.and_self] at hkept
  exact (hkept.eq_of_length (hperm.filter _).length_eq.symm).symm

theorem exists_of_sorts_cons {listed rest : List Stage} {first : Stage} (h : Sorts listed (first :: rest)) :
    ∃ before after, listed = before ++ first :: after ∧ (∀ s ∈ before, first.order < s.order) ∧
      (∀ s ∈ after, first.order ≤ s.order) ∧ Sorts (before ++ after) rest := by
  have hfirst := h.stable first.order
  rw [List.filter_cons_of_pos (by simp)] at hfirst
  obtain ⟨before, after, rfl, hbefore, -, hafter⟩ := List.filter_eq_cons_iff.1 hfirst.symm
  have hleast : ∀ s ∈ before ++ first :: after, first.order ≤ s.order := fun s hs => by
    rcases List.mem_cons.1 (h.perm.mem_iff.2 hs) with rfl | hs
    · exact Int32.le_refl _
    · exact List.rel_of_pairwise_cons h.ascending hs
  have hother (s : Stage) (hs : s ∈ before) : s.order ≠ first.order := by simpa using hbefore s hs
  refine ⟨before, after, rfl, fun s hs => ?_, fun s hs => hleast s (by simp [hs]), ?_, h.ascending.tail, fun order => ?_⟩
  · exact Int32.lt_of_le_of_ne (hleast s (by simp [hs])) (hother s hs).symm
  · exact (List.perm_cons first).1 (h.perm.trans List.perm_middle)
  · by_cases ho : first.order = order
    · subst ho
      have hnone : (before.filter fun s => s.order = first.order) = [] := by simpa using hother
      rw [List.filter_append, hnone, List.nil_append, hafter]
    · have hall := h.stable order
      rw [List.filter_append, List.filter_cons_of_neg (by simpa using ho), List.filter_cons_of_neg (by simpa using ho)] at hall
      rw [hall, List.filter_append]

/-- The fixed group: all that is listed, but where a commit starts the clock, for the earliest of the least order. -/
def KeepsFixed (config : PipelineConfig) (group : List Stage) : Prop :=
  if config.startsAtCommit ∧ config.fixed ≠ [] then
    ∃ before first after, config.fixed = before ++ first :: after ∧ (∀ s ∈ before, first.order < s.order) ∧
      (∀ s ∈ after, first.order ≤ s.order) ∧ Sorts (before ++ after) group
  else Sorts config.fixed group

theorem keepsFixed_fixedStages (config : PipelineConfig) : KeepsFixed config (fixedStages config) := by
  have hsorts := sorts_sortedGroup config.fixed
  unfold KeepsFixed fixedStages
  cases hc : config.startsAtCommit with
  | false => simpa using hsorts
  | true =>
    cases hg : sortedGroup config.fixed with
    | nil =>
      rw [hg] at hsorts
      have hnone : config.fixed = [] := hsorts.perm.nil_eq.symm
      simpa [hnone] using hnone ▸ hsorts
    | cons first rest =>
      rw [hg] at hsorts
      have hsome : config.fixed ≠ [] := fun hn => by simpa [hn] using hsorts.perm
      obtain ⟨before, after, hlisted, hrest⟩ := exists_of_sorts_cons hsorts
      rw [if_pos ⟨rfl, hsome⟩]
      exact ⟨before, first, after, hlisted, hrest⟩

/-- The pipeline is its configuration: the groups one after the other, and the start that the flags ask for. -/
structure Arranges (config : PipelineConfig) (q : Query) (p : Pipeline) : Prop where
  groups : ∃ before fixed after, p.stages = before ++ fixed ++ after ∧ Sorts config.preDevelopment before ∧
    KeepsFixed config fixed ∧ Sorts config.postDevelopment after
  /-- A generic event is asked for once, before the anchor's creation or the commit. -/
  start : p.start =
    if config.startsAtGenericEvent then
      .genericEvent config.startingEventTypes (if config.startsAtCommit then .commitCreated else .anchorCreated)
    else if config.startsAtCommit then .commitCreated else .anchorCreated
  anchor : p.anchor = ⟨q.calculation, q.issueSystem⟩
  /-- The start as the query reads it. -/
  expression : (p.start.clause p.anchor).expression =
    let moment := if config.startsAtCommit then Expr.column "c" "committed_at" else p.anchor.createdAt
    if config.startsAtGenericEvent then .apply "COALESCE" [.column "ge" "event_time", moment] else moment
  /-- The types of starting events are bound where there are any, and nothing else is. -/
  types : (p.start.clause p.anchor).demand.bindings =
    if config.startsAtGenericEvent ∧ config.startingEventTypes ≠ [] then
      [("starting_generic_event_types", .textList config.startingEventTypes)]
    else []

theorem expression_configuredStart (config : PipelineConfig) (anchor : Anchor) :
    ((configuredStart config).clause anchor).expression =
      let moment := if config.startsAtCommit then Expr.column "c" "committed_at" else anchor.createdAt
      if config.startsAtGenericEvent then .apply "COALESCE" [.column "ge" "event_time", moment] else moment := by
  unfold configuredStart
  cases config.startsAtCommit <;> cases config.startsAtGenericEvent <;> rfl

theorem bindings_configuredStart (config : PipelineConfig) (anchor : Anchor) :
    ((configuredStart config).clause anchor).demand.bindings =
      if config.startsAtGenericEvent ∧ config.startingEventTypes ≠ [] then
        [("starting_generic_event_types", .textList config.startingEventTypes)]
      else [] := by
  unfold configuredStart
  cases config.startsAtCommit <;> cases config.startsAtGenericEvent <;> cases config.startingEventTypes <;> rfl

/-- A pipeline that is assembled has every stage that is configured once, in ascending order of its group, but for the
one that a starting commit takes the place of. -/
theorem arranges_of_assemble {config : PipelineConfig} {q : Query} {p : Pipeline} (h : assemble config q = .ok p) :
    Arranges config q p := by
  have hp := (assembled_of_eq_ok h).eq
  subst hp
  exact {
    groups := ⟨_, _, _, rfl, sorts_sortedGroup _, keepsFixed_fixedStages _, sorts_sortedGroup _⟩
    start := rfl
    anchor := rfl
    expression := expression_configuredStart _ _
    types := bindings_configuredStart _ _ }

/-- Two fixed stages share the least order, which is negative, and the first of them stands for the starting commit. -/
def reviewed : PipelineConfig where
  name := "reviewed"
  description := ""
  preDevelopment := [Request.stageOf "work" .statusReached ["DONE"]]
  fixed :=
    [.new "merge" 2 (.ofKind .prMerged), .new "commit" (-1) (.ofKind .commitCreated),
      .new "open" (-1) (.ofKind .prCreated)]
  postDevelopment := []
  startsAtCommit := true
  startsAtGenericEvent := true
  startingEventTypes := ["incident"]

theorem arranges_reviewed : ∃ p, assemble reviewed .standard = .ok p ∧ Arranges reviewed .standard p ∧
    p.stages.map Stage.name = ["work", "open", "merge"] := by
  have hnames : (assemble reviewed .standard).map (fun p => p.stages.map Stage.name) = .ok ["work", "open", "merge"] := by
    cbv
  obtain ⟨p, hp, hstages⟩ := Except.map_eq_ok.1 hnames
  exact ⟨p, hp, arranges_of_assemble hp, hstages⟩

end Pipeline
end LeadTime
