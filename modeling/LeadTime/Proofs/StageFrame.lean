import LeadTime.Proofs.Rejection.Stages
import LeadTime.Proofs.StageEvent.Carried
import Mathlib

/-! Compiling a stage only adds. Joins that were there stay in their places with their lines, and get no condition but
those on the branches of a pull request; bindings of other names keep their places and values; and a stage that cannot
be compiled leaves all as it was. -/
namespace LeadTime

open Sql

def JoinEntry.addConditions (e : JoinEntry) (conditions : List Expr) : JoinEntry :=
  { e with conditions := e.conditions ++ conditions }

@[simp] theorem JoinEntry.addConditions_nil (e : JoinEntry) : e.addConditions [] = e := by simp [addConditions]

namespace Registry

variable {r s t : Registry} {req : JoinRequest} {reqs : List JoinRequest} {j : Join}

/-- The registry with further joins after its own, which could not be read before and have no conditions. -/
structure Extends (r s : Registry) : Prop where
  context : s.context = r.context
  entries : ∃ added, s.entries = r.entries ++ added ∧ ∀ e ∈ added, r.isJoined e.join = false ∧ e.conditions = []

theorem Extends.refl (r : Registry) : r.Extends r := ⟨rfl, [], by simp, by simp⟩

theorem Extends.isJoined (h : r.Extends s) (hj : r.isJoined j = true) : s.isJoined j = true := by
  obtain ⟨added, hentries, -⟩ := h.entries
  rw [isJoined_iff, holds_iff] at hj ⊢
  rw [h.context, hentries]
  exact hj.imp_right fun ⟨e, he, hjoin⟩ => ⟨e, List.mem_append_left _ he, hjoin⟩

theorem Extends.push (h : r.Extends s) (hj : s.isJoined j = false) (lines : List JoinLine) :
    r.Extends (s.push j lines) := by
  have hnew : r.isJoined j = false := Bool.eq_false_iff.2 fun hold => by simp [h.isJoined hold] at hj
  obtain ⟨added, hentries, hadded⟩ := h.entries
  refine ⟨h.context, added ++ [⟨j, lines, []⟩], by rw [Registry.push, hentries, List.append_assoc], ?_⟩
  rw [List.forall_mem_append]
  exact ⟨hadded, by simpa using hnew⟩

theorem Extends.request (h : r.Extends s) (hreq : ∀ j c, req ≠ .condition j c) : r.Extends (s.request req) :=
  request_induction (P := fun s => r.Extends s) h (fun _ _ lines _ hs hn _ _ => hs.push hn lines)
    fun j c he => absurd he (hreq j c)

theorem Extends.requestAll (h : r.Extends s) (hreqs : ∀ req ∈ reqs, ∀ j c, req ≠ .condition j c) :
    r.Extends (s.requestAll reqs) := by
  induction reqs generalizing s with
  | nil => exact h
  | cons req rest ih =>
    rw [List.forall_mem_cons] at hreqs
    exact ih (h.request hreqs.1) hreqs.2

theorem entries_requestAll_conditions (r : Registry) (j : Join) (conditions : List Expr) :
    (r.requestAll (conditions.map (.condition j))).entries =
      r.entries.map fun e => e.addConditions (if e.join = j then conditions else []) := by
  induction conditions generalizing r with
  | nil => simp
  | cons condition rest ih =>
    rw [List.map_cons, requestAll_cons, ih, Registry.request, addCondition, List.map_map]
    refine List.map_congr_left fun e _ => ?_
    by_cases hj : e.join = j <;> simp [hj, JoinEntry.addConditions]

end Registry

namespace StageEvent

def branchTerms (stage : Nat) : StageEvent → List Expr
  | .prCreated branches | .prMerged branches => (branches.terms stage).conditions
  | _ => []

/-- The conditions that a stage adds to a join: terms on branches, to the pull request that an issue is joined to. -/
def conditionsOn (anchor : Anchor) (stage : Nat) (event : StageEvent) (j : Join) : List Expr :=
  if anchor.isIssue ∧ j = .pullRequest then event.branchTerms stage else []

variable {ctx : EventContext} {name : String} {stage : Nat} {event : StageEvent} {clause : StageClause}

theorem conditionsOn_eq_nil (h : event.branchTerms stage = []) (anchor : Anchor) (j : Join) :
    event.conditionsOn anchor stage j = [] := by rw [conditionsOn, h, ite_self]

theorem requests_clause (h : event.clause ctx name stage = .ok clause) :
    ∃ joins : List JoinRequest, (∀ req ∈ joins, ∀ j c, req ≠ .condition j c) ∧
      clause.demand.requests = joins ++
        (event.conditionsOn ctx.joins.anchor stage .pullRequest).map (.condition .pullRequest) := by
  cases event with
  | prCreated branches | prMerged branches =>
    cases h
    refine ⟨[.held .pullRequest], by simp, ?_⟩
    by_cases hissue : ctx.joins.anchor.isIssue <;> simp [Clause.ofPullRequest, conditionsOn, branchTerms, hissue]
  | cdJobRun runs filter =>
    obtain ⟨ci, -, rfl⟩ := clause_cdJobRun_eq_ok.1 h
    rw [conditionsOn_eq_nil rfl, List.map_nil]
    exact ⟨_, by simp [Clause.ofCdRuns, Clause.ofRun, Clause.ofTime], (List.append_nil _).symm⟩
  | _ =>
    cases h
    rw [conditionsOn_eq_nil rfl, List.map_nil]
    exact ⟨_, by simp [Clause.ofStatus, Clause.ofLabel, Clause.ofReview, Clause.ofRuns, Clause.ofDeploy,
      Clause.ofGenericEvent, Clause.ofMappedRun, Clause.ofRun, Clause.ofTime], (List.append_nil _).symm⟩

theorem predicates_eq_branchTerms (h : event.clause ctx name stage = .ok clause) :
    clause.predicates = if ctx.joins.anchor.isIssue then [] else event.branchTerms stage := by
  cases event with
  | prCreated branches | prMerged branches => cases h; rfl
  | cdJobRun runs filter =>
    obtain ⟨ci, -, rfl⟩ := clause_cdJobRun_eq_ok.1 h
    exact (ite_self []).symm
  | _ =>
    cases h
    exact (ite_self []).symm

end StageEvent

/-- What stages are compiled over, one after the other: the draft so far and the last CI stage. -/
structure StageState where
  draft : Draft
  previousCi : Option Nat

namespace StageState

def joins (s : StageState) : Registry := s.draft.joins

def bindings (s : StageState) : Bindings := s.draft.bindings

def context (s : StageState) (lastJobRun : Option Nat) (runPredicates : List Expr) : EventContext :=
  ⟨s.joins.context, lastJobRun, runPredicates, s.previousCi⟩

end StageState

namespace StageEvent

/-- Compiles the event of a stage in place: the state takes what the clause demands, and knows of a CI stage. -/
def compile (lastJobRun : Option Nat) (runPredicates : List Expr) (name : String) (stage : Nat) (event : StageEvent) :
    ExceptT Error (StateM StageState) StageClause := do
  let s ← get
  let clause ← MonadExcept.ofExcept (event.clause (s.context lastJobRun runPredicates) name stage)
  set (⟨s.draft.meet clause.demand, nextCi s.previousCi stage event⟩ : StageState)
  return clause

/-- What becomes of a state over which the event of a stage was compiled. -/
structure OnlyAdds (stage : Nat) (event : StageEvent) (before after : StageState) (clause : StageClause) : Prop where
  context : after.joins.context = before.joins.context
  /-- Joins that were held keep their places and lines, and get no conditions but terms on branches; so do those after
  them, which could not be read before. -/
  entries : ∃ added, after.joins.entries = before.joins.entries.map (fun e =>
      e.addConditions (event.conditionsOn before.joins.context.anchor stage e.join)) ++ added ∧
    ∀ e ∈ added, before.joins.isJoined e.join = false ∧
      e.conditions = event.conditionsOn before.joins.context.anchor stage e.join
  /-- Terms on branches are returned where they are not put on a join. -/
  predicates : clause.predicates = if before.joins.context.anchor.isIssue then [] else event.branchTerms stage
  /-- What is not bound under a name of this stage keeps its place and value. -/
  bindings : ∀ (i : Nat) (name : String) (value : ParamValue), before.bindings.entries[i]? = some (name, value) →
    (∀ own : StageName, name ≠ own.text stage) → after.bindings.entries[i]? = some (name, value)
  /-- No name is bound but one of this stage. -/
  names : ∀ name ∈ after.bindings.keys, name ∈ before.bindings.keys ∨ ∃ own : StageName, name = own.text stage
  previousCi : after.previousCi = if event.kind.isCi then some stage else before.previousCi

variable {lastJobRun : Option Nat} {runPredicates : List Expr} {name : String} {stage : Nat} {event : StageEvent}
  {clause : StageClause} {s : StageState}

theorem run_compile (lastJobRun : Option Nat) (runPredicates : List Expr) (name : String) (stage : Nat)
    (event : StageEvent) (s : StageState) :
    (event.compile lastJobRun runPredicates name stage).run.run s =
      match event.clause (s.context lastJobRun runPredicates) name stage with
      | .ok clause => (.ok clause, ⟨s.draft.meet clause.demand, nextCi s.previousCi stage event⟩)
      | .error e => (.error e, s) := by
  have hread : (event.compile lastJobRun runPredicates name stage).run.run s =
      (ExceptT.run (m := StateM StageState) (do
        let clause ← MonadExcept.ofExcept (event.clause (s.context lastJobRun runPredicates) name stage)
        set (⟨s.draft.meet clause.demand, nextCi s.previousCi stage event⟩ : StageState)
        return clause)).run s := rfl
  rw [hread]
  cases event.clause (s.context lastJobRun runPredicates) name stage <;> rfl

theorem onlyAdds_of_clause (h : event.clause (s.context lastJobRun runPredicates) name stage = .ok clause) :
    event.OnlyAdds stage s ⟨s.draft.meet clause.demand, nextCi s.previousCi stage event⟩ clause := by
  have hown {n : String} (hn : n ∈ clause.demand.bindings.map Prod.fst) : ∃ own : StageName, n = own.text stage := by
    rw [bindings_clause h] at hn
    obtain ⟨pair, hpair, rfl⟩ := List.mem_map.1 hn
    obtain ⟨carried, -, rfl⟩ := List.mem_map.1 hpair
    exact ⟨carried.1, rfl⟩
  refine ⟨Registry.context_requestAll, ?_, predicates_eq_branchTerms h, ?_, ?_, rfl⟩
  · -- The joins come first, so that the conditions find them all.
    obtain ⟨joins, hjoins, hrequests⟩ := requests_clause h
    obtain ⟨-, added, hadded, hnew⟩ := (Registry.Extends.refl s.joins).requestAll hjoins
    let restrict (e : JoinEntry) : JoinEntry :=
      e.addConditions (event.conditionsOn s.joins.context.anchor stage e.join)
    have hrestrict (e : JoinEntry) : e.addConditions (if e.join = .pullRequest then
        event.conditionsOn s.joins.context.anchor stage .pullRequest else []) = restrict e := by
      by_cases hj : e.join = .pullRequest <;> simp [restrict, conditionsOn, hj]
    refine ⟨added.map restrict, ?_, fun e he => ?_⟩
    · show (s.joins.requestAll clause.demand.requests).entries = s.joins.entries.map restrict ++ added.map restrict
      rw [hrequests, Registry.requestAll_append, Registry.entries_requestAll_conditions, hadded, ← List.map_append]
      exact List.map_congr_left fun e _ => hrestrict e
    · obtain ⟨e, he', rfl⟩ := List.mem_map.1 he
      obtain ⟨hjoined, hnone⟩ := hnew e he'
      exact ⟨hjoined, by simp [restrict, JoinEntry.addConditions, hnone]⟩
  · intro i n value hi hother
    refine KeyMap.getElem?_insertAll_of_notMem hi fun hn => ?_
    obtain ⟨own, rfl⟩ := hown hn
    exact hother own rfl
  · intro n hn
    exact (KeyMap.mem_keys_insertAll.1 hn).imp_right hown

/-- Compiling the event of a stage only adds to what it is compiled over. It fails only for a CD stage without a CI
stage before it, and then leaves all as it was. -/
theorem compile_onlyAdds (lastJobRun : Option Nat) (runPredicates : List Expr) (name : String) (stage : Nat)
    (event : StageEvent) (before : StageState) :
    match (event.compile lastJobRun runPredicates name stage).run.run before with
    | (.ok clause, after) => event.OnlyAdds stage before after clause
    | (.error e, after) =>
      after = before ∧ e = .cdWithoutCi name ∧ event.kind = .cdJobRun ∧ before.previousCi = none := by
  rw [run_compile]
  cases h : event.clause (before.context lastJobRun runPredicates) name stage with
  | ok clause => exact onlyAdds_of_clause h
  | error e =>
    have herror := ((event.raises_clause _ _ _).error_iff e).1 h
    obtain ⟨rfl, hci⟩ := head?_errorUnless.1 herror
    obtain ⟨hkind, hnone⟩ := Classical.not_imp.1 hci
    exact ⟨rfl, rfl, hkind, Option.not_isSome_iff_eq_none.1 hnone⟩

end StageEvent

/-- The stages of a pipeline are compiled in this way. -/
theorem StageProgress.addStage_eq (lastJobRun : Option Nat) (runPredicates : List Expr) (progress : StageProgress)
    (stage : Stage) (index : Nat) :
    addStage lastJobRun runPredicates progress (stage, index) = (do
      let event ← StageEvent.ofStage stage
      let compiled :=
        (event.compile lastJobRun runPredicates stage.name index).run.run ⟨progress.draft, progress.previousCi⟩
      let clause ← compiled.1
      return {
        draft := compiled.2.draft
        previousCi := compiled.2.previousCi
        columns := progress.columns ++ [⟨clause.timestamp, clause.aggregate⟩]
        predicates := progress.predicates ++ clause.predicates }) := by
  refine bind_congr fun event => ?_
  dsimp only
  rw [StageEvent.run_compile]
  show (event.clause _ _ _ >>= _) = _
  simp only [StageState.context, StageState.joins]
  cases event.clause _ stage.name index <;> rfl

end LeadTime
