import LeadTime.Proofs.Compilation
import LeadTime.Proofs.Scope
import LeadTime.Proofs.StageEvent.Clause
import LeadTime.Proofs.StartTime
import Mathlib

/-! Stages one after the other. Each finds the registry as the stages before it leave it, so that its clause does what
clauses of stages do; `Compilation.stages` carries a property over all stages on these terms. -/
namespace LeadTime

open Sql

namespace Registry

variable {r : Registry} {ctx : EventContext} {stage : Nat} {reqs : List JoinRequest}

theorem Ready.requestAll (h : r.Ready ctx stage)
    (hreqs : ∀ req ∈ reqs, req.join.stage? = none ∧ req.join ≠ .sprint) : (r.requestAll reqs).Ready ctx stage := by
  induction reqs generalizing r with
  | nil => exact h
  | cons req rest ih =>
    rw [List.forall_mem_cons] at hreqs
    exact ih (h.request hreqs.1.1 hreqs.1.2) hreqs.2

theorem isJoined_of_asks {c : StageClause} {j : Join} (h : c.Asks j) :
    (r.requestAll c.demand.requests).isJoined j = true := by
  rcases h with h | ⟨line, h⟩
  · exact isJoined_of_mem_held h
  · exact isJoined_of_mem_supplied h

theorem Ready.add {event : StageEvent} {clause : StageClause} (h : r.Ready ctx stage)
    (spec : clause.Spec ctx stage event.kind.isJobRun) :
    (r.requestAll clause.demand.requests).Ready
      { ctx with previousCi := StageEvent.nextCi ctx.previousCi stage event } (stage + 1) where
  context := by rw [context_requestAll, h.context]
  earlier j n hj hh := by
    rcases holds_requestAll hh with hh | ⟨req, hr, rfl | hd⟩
    · exact Nat.lt_succ_of_lt (h.earlier j n hj hh)
    · rw [(spec.joins req hr).2 n hj]
      exact Nat.lt_succ_self _
    · rw [(Join.stage?_of_mem_dependencies hd).1] at hj
      cases hj
  sprint := by
    rw [Bool.eq_false_iff]
    intro hh
    rcases holds_requestAll hh with hh | ⟨req, hr, he | hd⟩
    · rw [h.sprint] at hh
      cases hh
    · exact (spec.joins req hr).1 he.symm
    · exact (Join.stage?_of_mem_dependencies hd).2 rfl
  previousCi ci hci := by
    have hne : Join.jobRun ci ≠ (r.requestAll clause.demand.requests).context.anchor.join :=
      Join.ne_anchor_of_stage rfl _
    simp only [StageEvent.nextCi] at hci
    split at hci
    · rename_i hisCi
      cases hci
      have hrun : event.kind.isJobRun = true := by
        revert hisCi
        cases event.kind <;> simp [EventKind.isCi, EventKind.isJobRun]
      exact holds_of_isJoined (isJoined_of_asks (spec.run hrun)) hne
    · exact holds_of_isJoined (isJoined_requestAll (isJoined_iff.2 (Or.inr (h.previousCi ci hci)))) hne

end Registry

namespace Scope

/-- The predicates on job runs, where there are any, come from the filter of job runs, and a stage takes them. -/
theorem runTerms_eq_ok {s : Scope} {terms : Terms} {warnings : List Warning}
    (h : s.runTerms = .ok (terms, warnings)) : terms = .none ∨ (∃ i, s.lastJobRun = some i) ∧
      ∃ f r, s.filters.jobRuns = some f ∧ s.rules.jobRuns f runAlias s.filters.orgUnit = .ok r ∧
        terms = ⟨r.predicates.values, r.bindings.entries⟩ := by
  unfold runTerms at h
  split at h
  · cases h
    exact Or.inl rfl
  · rename_i f hf
    split at h
    · cases h
    · rename_i r hr
      split at h
      · cases h
        exact Or.inl rfl
      · split at h
        · cases h
          exact Or.inl rfl
        · rename_i hl
          cases h
          cases hs : s.lastJobRun with
          | none => simp [hs] at hl
          | some i => exact Or.inr ⟨⟨i, rfl⟩, f, r, hf, hr, rfl⟩

end Scope

namespace Compilation

variable {c : Compiler} {r : Request} (k : Compilation c r)

def firstRequests : List JoinRequest :=
  Compiler.firstRequests r.query k.pipeline.anchor ++ k.start.demand.requests

theorem joins_first : k.first.draft.joins = (Registry.empty k.context).requestAll k.firstRequests := by
  have h : k.first.draft.joins = (Registry.empty k.context).requestAll (k.firstRequests ++ []) := rfl
  rw [h, List.append_nil]

theorem bindings_first : k.first.draft.bindings =
    KeyMap.empty.insertAll (k.start.demand.bindings ++ k.runTerms.bindings) := rfl

theorem spec_start : k.start.Spec k.pipeline.anchor := StartTime.spec_clause _ _

theorem mem_firstRequests_cases {req : JoinRequest} (h : req ∈ k.firstRequests) :
    req = .held .freshness ∨ req = .held .issue ∨ req ∈ k.start.demand.requests := by
  rcases List.mem_append.1 h with h | h
  · simp only [Compiler.firstRequests] at h
    split at h <;> split at h <;> simp at h <;> tauto
  · exact Or.inr (Or.inr h)

theorem ready_first : k.first.draft.joins.Ready (k.eventContext none) 0 := by
  rw [joins_first]
  refine Registry.Ready.requestAll ⟨rfl, ?_, rfl, ?_⟩ fun req hr => ?_
  · simp [Registry.empty, Registry.holds]
  · simp [eventContext]
  · rcases k.mem_firstRequests_cases hr with rfl | rfl | hr
    · simp [JoinRequest.join, Join.stage?]
    · simp [JoinRequest.join, Join.stage?]
    · rcases k.spec_start.joins req hr with h | h <;> rw [h] <;> simp [Join.stage?]

/-- What holds before the first stage, and is kept by each stage whose clause does what clauses of stages do, holds
after the last. -/
theorem stages {P : Nat → StageProgress → Prop} (first : P 0 k.first)
    (step : ∀ i s stage event clause, k.pipeline.stages[i]? = some stage →
      stage.kind? = some event.kind → clause.Spec (k.eventContext s.previousCi) i event.kind.isJobRun →
      s.draft.joins.Ready (k.eventContext s.previousCi) i → P i s → P (i + 1) (s.add i event clause)) :
    P k.pipeline.stages.length k.progress ∧
      k.progress.draft.joins.Ready (k.eventContext k.progress.previousCi) k.pipeline.stages.length := by
  refine k.induction
    (P := fun i s => P i s ∧ s.draft.joins.Ready (k.eventContext s.previousCi) i) ⟨first, k.ready_first⟩ ?_
  rintro i s stage event clause hst he hc - ⟨hp, hr⟩
  have spec := StageEvent.spec_clause hc
  exact ⟨step i s stage event clause hst (StageEvent.kind_ofStage he) spec hr hp, hr.add spec⟩

theorem ready : k.progress.draft.joins.Ready (k.eventContext k.progress.previousCi) k.pipeline.stages.length :=
  (k.stages (P := fun _ _ => True) trivial fun _ _ _ _ _ _ _ _ _ _ => trivial).2

theorem isJoined_lastJobRun {i : Nat} (h : k.pipeline.lastJobRun? = some i) :
    k.progress.draft.joins.isJoined (.jobRun i) = true := by
  obtain ⟨last, hlast, hrun⟩ := Pipeline.lastJobRun?_eq_some h
  have hlt : i < k.pipeline.stages.length := (List.getElem?_eq_some_iff.1 hlast).1
  have key := (k.stages (P := fun n s => i < n → s.draft.joins.isJoined (.jobRun i) = true) (by simp) ?_).1
  · exact key hlt
  · intro n s stage event clause hst hk spec _ hp hn
    rcases Nat.lt_succ_iff_lt_or_eq.1 hn with hn | rfl
    · exact Registry.isJoined_requestAll (hp hn)
    · rw [hlast] at hst
      cases hst
      have hj : event.kind.isJobRun = true := by simpa [Pipeline.isJobRunStage, hk] using hrun
      exact Registry.isJoined_of_asks (spec.run hj)

theorem isJoined_progress {j : Join} (h : k.first.draft.joins.isJoined j = true) :
    k.progress.draft.joins.isJoined j = true :=
  (k.stages (P := fun _ s => s.draft.joins.isJoined j = true) h
    fun _ _ _ _ _ _ _ _ _ hp => Registry.isJoined_requestAll hp).1

theorem joins_met : k.met.joins = k.progress.draft.joins.requestAll (k.clauses.flatMap (·.demand.requests)) :=
  Draft.joins_meetAll _ _

theorem isJoined_met {j : Join} (h : k.progress.draft.joins.isJoined j = true) : k.met.joins.isJoined j = true := by
  rw [joins_met]
  exact Registry.isJoined_requestAll h

theorem context_progress : k.progress.draft.joins.context = k.context := k.ready.context

@[simp] theorem context_met : k.met.joins.context = k.context := by
  rw [joins_met, Registry.context_requestAll, context_progress]

theorem isJoined_issue (h : k.pipeline.anchor.hasIssues = true) : k.met.joins.isJoined .issue = true := by
  cases ha : k.pipeline.anchor.isIssue with
  | true =>
    refine Registry.isJoined_iff.2 (Or.inl ?_)
    rw [context_met]
    simp [context, Compiler.joinContext, Anchor.join, ha]
  | false =>
    refine k.isJoined_met (k.isJoined_progress ?_)
    rw [joins_first]
    refine Registry.isJoined_of_mem_held (List.mem_append_left _ ?_)
    simp [Compiler.firstRequests, ha, h]

theorem closeAll_firstRequests : (Registry.empty k.context).CloseAll k.firstRequests := by
  refine Registry.closeAll_append ?_ (k.spec_start.closes _)
  simp only [Compiler.firstRequests]
  split <;> split <;> simp [Registry.CloseAll, JoinRequest.Closed, Join.isSupplied]

theorem landAll_firstRequests : (Registry.empty k.context).LandAll k.firstRequests := by
  refine Registry.landAll_append ?_ (k.spec_start.lands _)
  simp only [Compiler.firstRequests]
  split <;> split <;> simp [Registry.LandAll, JoinRequest.Lands]

theorem formed_met : k.met.joins.Formed := by
  have hfirst : k.first.draft.joins.Formed := by
    rw [joins_first]
    exact (Registry.formed_empty _).requestAll (Registry.proper_of_closeAll k.closeAll_firstRequests)
  have hprogress := (k.stages (P := fun _ s => s.draft.joins.Formed) hfirst
    fun _ _ _ _ _ _ _ spec _ h => h.requestAll spec.proper).1
  rw [joins_met]
  exact hprogress.requestAll (Registry.proper_of_closeAll (r := k.progress.draft.joins) (Scope.closeAll_requests k.posed))

theorem introduced?_source : k.plan.layers.source.introduced? = some k.pipeline.anchor.tableAlias := rfl

theorem aliases_plan : k.plan.aliases = k.met.joins.aliases := by
  rw [Plan.aliases, introduced?_source, Registry.aliases, context_met]
  rfl

section Criteria

variable {settings : CompilerSettings} {r : Request} (k : Compilation ⟨settings, .criteria⟩ r)

theorem fit_runTerms : (∀ p ∈ k.runTerms.conditions, p.Legible) ∧ ∀ p ∈ k.runTerms.conditions, p.tables ⊆ ["jr"] := by
  rcases Scope.runTerms_eq_ok k.ranOver with h | ⟨-, f, res, -, hr, h⟩
  · rw [h]
    simp
  · have fit : res.Fit Scope.runAlias := Restriction.fit_ofCriteria (by decide) (by decide) hr
    rw [h]
    exact ⟨fit.legible, fit.reads⟩

theorem spec_clauses {clause : ScopeClause} (h : clause ∈ k.clauses) : clause.Spec k.scope := by
  rcases Scope.cases_of_mem k.posed h with rfl | ⟨j, u, res, hr, rfl⟩ | h
  · exact Scope.spec_anchorPart
  · exact Scope.spec_entityPart (hr.fit rfl) u
  · exact h.spec

end Criteria

end Compilation
end LeadTime
