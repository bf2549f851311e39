import LeadTime.Proofs.StageColumns
import LeadTime.Proofs.Stages
import Mathlib

/-! Where joins come from. An entry of a registry has the lines that some request put in, and the conditions that were
requested of its join; and a compilation makes three kinds of request: before the first stage, for the clause of a stage
in its place, and for a clause on whole rows. -/
namespace LeadTime

open Sql

/-- The entry's lines were put in by a request, and its conditions were requested of its join. -/
structure JoinEntry.StemsFrom (context : JoinContext) (made : JoinRequest → Prop) (e : JoinEntry) : Prop where
  lines : ∃ req, made req ∧ req.PutsIn context e.join e.lines
  conditions : ∀ c ∈ e.conditions, made (.condition e.join c)

namespace Registry

variable {r : Registry} {made : JoinRequest → Prop} {req : JoinRequest} {reqs : List JoinRequest}

def StemsFrom (made : JoinRequest → Prop) (r : Registry) : Prop := ∀ e ∈ r.entries, e.StemsFrom r.context made

theorem StemsFrom.request (h : r.StemsFrom made) (hreq : made req) : (r.request req).StemsFrom made := by
  refine request_induction (P := fun s => s.StemsFrom made) h (fun s j lines hc hs _ _ hputs e he => ?_)
    fun j c hcond e he => ?_
  · rcases List.mem_append.1 he with he | he
    · exact hs e he
    · rw [List.mem_singleton.1 he, context_push, hc]
      exact ⟨⟨req, hreq, hputs⟩, fun _ hm => absurd hm List.not_mem_nil⟩
  · obtain ⟨e, hm, rfl⟩ := List.mem_map.1 he
    have hold := h e hm
    split
    · rename_i hj
      refine ⟨hold.lines, fun c' hc' => ?_⟩
      rcases List.mem_append.1 hc' with hc' | hc'
      · exact hold.conditions c' hc'
      · rw [List.mem_singleton.1 hc']
        subst hcond
        rwa [hj]
    · exact hold

theorem StemsFrom.requestAll (h : r.StemsFrom made) (hreqs : ∀ req ∈ reqs, made req) :
    (r.requestAll reqs).StemsFrom made := by
  induction reqs generalizing r with
  | nil => exact h
  | cons req rest ih =>
    rw [List.forall_mem_cons] at hreqs
    exact ih (h.request hreqs.1) hreqs.2

theorem stemsFrom_empty (context : JoinContext) : (empty context).StemsFrom made := by simp [StemsFrom, empty]

end Registry

theorem StartTime.condition_of_mem {start : StartTime} {anchor : Anchor} {j : Join} {condition : Expr}
    (h : .condition j condition ∈ (start.clause anchor).demand.requests) :
    j = .startEvent ∧ condition = .among (.column "ge" "event_type") Placeholder.startingEventTypes := by
  induction start with
  | anchorCreated => cases h
  | commitCreated => simp [clause] at h
  | genericEvent types otherwise ih =>
    have hrequests : (clause anchor (.genericEvent types otherwise)).demand.requests =
        (otherwise.clause anchor).demand.requests ++ [.held .startEvent] ++ (typeDemand types).requests := rfl
    rw [hrequests, List.mem_append, List.mem_append] at h
    rcases h with (h | h) | h
    · exact ih h
    · simp at h
    · simpa using eq_of_mem_requests_typeDemand h

theorem StageEvent.condition_of_mem {event : StageEvent} {ctx : EventContext} {name : String} {stage : Nat}
    {clause : StageClause} (h : event.clause ctx name stage = .ok clause) {j : Join} {condition : Expr}
    (hm : .condition j condition ∈ clause.demand.requests) :
    j = .pullRequest ∧ ∃ branches : BranchFilter, condition ∈ (branches.terms stage).conditions := by
  cases event with
  | cdJobRun runs filter =>
    obtain ⟨ci, -, rfl⟩ := clause_cdJobRun_eq_ok.1 h
    simp [Clause.ofCdRuns, Clause.ofRun, Clause.ofTime] at hm
  | prCreated branches | prMerged branches =>
    cases h
    cases ha : ctx.joins.anchor.isIssue <;> simp [Clause.ofPullRequest, ha] at hm
    exact ⟨hm.2.symm, branches, hm.1⟩
  | _ =>
    cases h
    simp [Clause.ofStatus, Clause.ofTime, Clause.ofLabel, Clause.ofReview, Clause.ofGenericEvent, Clause.ofRuns,
      Clause.ofMappedRun, Clause.ofRun, Clause.ofDeploy] at hm

/-- Clauses on whole rows ask for entities and sprints, and put no conditions on joins. -/
theorem Scope.requests_cases {s : Scope} {clauses : List ScopeClause} (h : s.clauses = clauses.map .ok) {req : JoinRequest}
    (hm : req ∈ clauses.flatMap (·.demand.requests)) : ForEntity req ∨ req = .supplied .sprint s.sprintLine := by
  obtain ⟨before, after, hbefore, hafter, hrequests⟩ := requests_eq h
  rw [hrequests, List.mem_append, List.mem_append] at hm
  rcases hm with (hm | hm) | hm
  · exact Or.inl (hbefore req hm)
  · rcases s.requests_sprintPart with hp | hp <;> rw [hp] at hm
    · cases hm
    · exact Or.inr (List.mem_singleton.1 hm)
  · exact Or.inl (hafter req hm)

namespace Compilation

variable {c : Compiler} {r : Request} (k : Compilation c r)

theorem ClauseAt.spec {k : Compilation c r} {i : Nat} {stage : Stage} {clause : StageClause}
    (h : k.ClauseAt i stage clause) : ∃ kind, stage.kind? = some kind ∧
      clause.Spec (k.eventContext (k.pipeline.ciBefore i)) i kind.isJobRun := by
  obtain ⟨event, he, hc⟩ := h
  exact ⟨event.kind, StageEvent.kind_ofStage he, StageEvent.spec_clause hc⟩

/-- A request that a compilation makes of its joins. -/
inductive Makes (k : Compilation c r) (req : JoinRequest) : Prop where
  | first (h : req ∈ k.firstRequests)
  | stage {i : Nat} {stage : Stage} {clause : StageClause} (hstage : k.pipeline.stages[i]? = some stage)
      (hclause : k.ClauseAt i stage clause) (h : req ∈ clause.demand.requests)
  | scope (h : req ∈ k.clauses.flatMap (·.demand.requests))

/-- The joins are those that the requests leave, and no other requests are made. -/
theorem exists_requests : ∃ reqs, k.met.joins = (Registry.empty k.context).requestAll reqs ∧
    ∀ req, req ∈ reqs ↔ k.Makes req := by
  have hstages := k.clauseInduction (P := fun n s => ∃ reqs,
    s.draft.joins = (Registry.empty k.context).requestAll reqs ∧ ∀ req, req ∈ reqs ↔ req ∈ k.firstRequests ∨
      ∃ i stage clause, i < n ∧ k.pipeline.stages[i]? = some stage ∧ k.ClauseAt i stage clause ∧
        req ∈ clause.demand.requests) ?_ ?_
  · obtain ⟨reqs, hjoins, hreqs⟩ := hstages
    refine ⟨reqs ++ k.clauses.flatMap (·.demand.requests), ?_, fun req => ?_⟩
    · rw [joins_met, hjoins, Registry.requestAll_append]
    · rw [List.mem_append, hreqs]
      constructor
      · rintro ((h | ⟨i, stage, clause, -, hstage, hclause, h⟩) | h)
        · exact .first h
        · exact .stage hstage hclause h
        · exact .scope h
      · rintro (h | ⟨hstage, hclause, h⟩ | h)
        · exact Or.inl (Or.inl h)
        · exact Or.inl (Or.inr ⟨_, _, _, (List.getElem?_eq_some_iff.1 hstage).1, hstage, hclause, h⟩)
        · exact Or.inr h
  · exact ⟨k.firstRequests, k.joins_first, by simp⟩
  · rintro n s stage event clause hstage hclause ⟨reqs, hjoins, hreqs⟩
    refine ⟨reqs ++ clause.demand.requests, ?_, fun req => ?_⟩
    · rw [Registry.requestAll_append, ← hjoins]
      rfl
    · rw [List.mem_append, hreqs, or_assoc]
      refine or_congr_right ⟨?_, ?_⟩
      · rintro (⟨i, stage', clause', hi, h⟩ | h)
        · exact ⟨i, stage', clause', Nat.lt_succ_of_lt hi, h⟩
        · exact ⟨n, stage, clause, n.lt_succ_self, hstage, hclause, h⟩
      · rintro ⟨i, stage', clause', hi, hstage', hclause', h⟩
        rcases Nat.lt_succ_iff_lt_or_eq.1 hi with hi | rfl
        · exact Or.inl ⟨i, stage', clause', hi, hstage', hclause', h⟩
        · rw [hstage] at hstage'
          cases hstage'
          rw [hclause.unique hclause'] at h
          exact Or.inr h

theorem stemsFrom_met : k.met.joins.StemsFrom k.Makes := by
  obtain ⟨reqs, hjoins, hreqs⟩ := k.exists_requests
  rw [hjoins]
  exact (Registry.stemsFrom_empty _).requestAll fun req hm => (hreqs req).1 hm

variable {k} {j : Join}

theorem Makes.isJoined (h : k.Makes (.held j)) : k.met.joins.isJoined j = true := by
  obtain ⟨reqs, hjoins, hreqs⟩ := k.exists_requests
  rw [hjoins]
  exact Registry.isJoined_of_mem_held ((hreqs _).2 h)

theorem Makes.isJoined_supplied {line : JoinLine} (h : k.Makes (.supplied j line)) : k.met.joins.isJoined j = true := by
  obtain ⟨reqs, hjoins, hreqs⟩ := k.exists_requests
  rw [hjoins]
  exact Registry.isJoined_of_mem_supplied ((hreqs _).2 h)

theorem Makes.condition {condition : Expr} (h : k.Makes (.condition j condition)) :
    (j = .startEvent ∧ condition = .among (.column "ge" "event_type") Placeholder.startingEventTypes) ∨
      j = .pullRequest ∧ ∃ (branches : BranchFilter) (stage : Nat), condition ∈ (branches.terms stage).conditions := by
  rcases h with h | ⟨-, ⟨event, -, hc⟩, h⟩ | h
  · rcases k.mem_firstRequests_cases h with h | h | h
    · cases h
    · cases h
    · exact Or.inl (StartTime.condition_of_mem h)
  · obtain ⟨hj, branches, hm⟩ := StageEvent.condition_of_mem hc h
    exact Or.inr ⟨hj, branches, _, hm⟩
  · rcases Scope.requests_cases k.posed h with (h | h | h) | h <;> cases h

theorem conditions_eq_nil (k : Compilation c r) {e : JoinEntry} (he : e ∈ k.met.joins.entries) (hevent : e.join ≠ .startEvent)
    (hrequest : e.join ≠ .pullRequest) : e.conditions = [] := by
  refine List.eq_nil_iff_forall_not_mem.2 fun condition hm => ?_
  rcases ((k.stemsFrom_met e he).conditions condition hm).condition with h | h
  · exact hevent h.1
  · exact hrequest h.1

theorem Makes.ofRun {i : Nat} {req : JoinRequest} (h : k.Makes req) (hj : req.join = .jobRun i) :
    ∃ stage clause, k.pipeline.stages[i]? = some stage ∧ k.ClauseAt i stage clause ∧
      req ∈ clause.demand.requests := by
  rcases h with h | ⟨hstage, hclause, h⟩ | h
  · rcases k.mem_firstRequests_cases h with rfl | rfl | h
    · cases hj
    · cases hj
    · rcases k.spec_start.joins req h with hs | hs <;> rw [hs] at hj <;> cases hj
  · obtain ⟨kind, -, spec⟩ := hclause.spec
    obtain rfl : i = _ := (spec.joins req h).2 i (by rw [hj]; rfl)
    exact ⟨_, _, hstage, hclause, h⟩
  · rcases Scope.requests_cases k.posed h with (rfl | rfl | rfl) | rfl <;> cases hj

end Compilation
end LeadTime
