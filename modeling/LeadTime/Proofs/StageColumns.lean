import LeadTime.Proofs.Pipeline
import LeadTime.Proofs.Rejection.Stages
import Mathlib

/-! The columns of stages. Each stage that is added brings the column of its event's clause, in its place: the clause that
its event has at the stage's own number, after the CI stages before it. -/
namespace LeadTime

open Sql

def Pipeline.ciBefore (p : Pipeline) (n : ℕ) : Option ℕ :=
  ((p.stages.take n).zipIdx.filter fun indexed => indexed.1.isCi).getLast?.map Prod.snd

@[simp] theorem Pipeline.ciBefore_zero (p : Pipeline) : p.ciBefore 0 = none := by simp [ciBefore]

theorem Pipeline.ciBefore_succ {p : Pipeline} {n : ℕ} {stage : Stage} (h : p.stages[n]? = some stage) :
    p.ciBefore (n + 1) = if stage.isCi then some n else p.ciBefore n := by
  have hlength : (p.stages.take n).length = n := by
    rw [List.length_take, min_eq_left (List.getElem?_eq_some_iff.1 h).1.le]
  rw [ciBefore, List.take_add_one, h, Option.toList_some, List.zipIdx_append, List.filter_append, hlength, Nat.zero_add]
  cases hci : stage.isCi <;> simp [ciBefore, hci]

/-- The latest time of a stage counts, not the earliest: of a merge, and of an approval that asks for the last. -/
def Stage.countsLatest (s : Stage) : Bool :=
  s.kind? = some .prMerged ||
    s.kind? = some .prApproved && (s.event.paramValues "approval").head?.any (Text.sameLetters · "max")

namespace StageEvent

/-- Which of several times counts, by the event alone. -/
def aggregate : StageEvent → Aggregate
  | .prMerged _ => .max
  | .prApproved aggregate => aggregate
  | _ => .min

theorem aggregate_clause {event : StageEvent} {ctx : EventContext} {name : String} {index : ℕ} {clause : StageClause}
    (h : event.clause ctx name index = .ok clause) : clause.aggregate = event.aggregate := by
  cases event with
  | cdJobRun runs filter =>
    obtain ⟨ci, -, rfl⟩ := clause_cdJobRun_eq_ok.1 h
    rfl
  | _ =>
    cases h
    rfl

theorem approvalAggregate_eq (e : Event) :
    approvalAggregate e = if (e.paramValues "approval").head?.any (Text.sameLetters · "max") then .max else .min := by
  unfold approvalAggregate
  cases e.paramValues "approval" <;> rfl

theorem aggregate_ofStage {s : Stage} {event : StageEvent} (h : ofStage s = .ok event) :
    event.aggregate = if s.countsLatest then .max else .min := by
  unfold ofStage at h
  split at h <;> rename_i hkind <;> simp only [Stage.countsLatest, hkind]
  case h_1 => cases h
  case h_7 =>
    cases h
    simpa [aggregate] using approvalAggregate_eq s.event
  case h_9 | h_11 | h_12 | h_10 =>
    obtain ⟨_, -, rfl⟩ := Except.map_eq_ok.1 h
    rfl
  all_goals
    cases h
    rfl

end StageEvent

namespace Compilation

variable {c : Compiler} {r : Request} (k : Compilation c r)

def ClauseAt (index : ℕ) (stage : Stage) (clause : StageClause) : Prop :=
  ∃ event, StageEvent.ofStage stage = .ok event ∧
    event.clause (k.eventContext (k.pipeline.ciBefore index)) stage.name index = .ok clause

/-- Each stage in its turn adds the clause that its event has in the stage's place. -/
theorem clauseInduction {P : Nat → StageProgress → Prop} (first : P 0 k.first)
    (step : ∀ i s stage event clause, k.pipeline.stages[i]? = some stage → k.ClauseAt i stage clause → P i s →
      P (i + 1) (s.add i event clause)) : P k.pipeline.stages.length k.progress := by
  have hrun := k.induction (P := fun n s => s.previousCi = k.pipeline.ciBefore n ∧ P n s) ?_ ?_
  · exact hrun.2
  · exact ⟨k.pipeline.ciBefore_zero.symm, first⟩
  · rintro n s stage event clause hstage he hc - ⟨hci, hs⟩
    have hkind : stage.isCi = event.kind.isCi := by rw [Stage.isCi, StageEvent.kind_ofStage he, Option.any_some]
    rw [hci] at hc
    refine ⟨?_, step n s stage event clause hstage ⟨event, he, hc⟩ hs⟩
    rw [Pipeline.ciBefore_succ hstage, hkind, ← hci]
    rfl

theorem ClauseAt.unique {k : Compilation c r} {i : Nat} {stage : Stage} {clause clause' : StageClause}
    (h : k.ClauseAt i stage clause) (h' : k.ClauseAt i stage clause') : clause' = clause := by
  obtain ⟨event, he, hc⟩ := h
  obtain ⟨event', he', hc'⟩ := h'
  rw [he] at he'
  cases he'
  rw [hc] at hc'
  cases hc'
  rfl

theorem columns_stages : k.progress.columns.length = k.pipeline.stages.length ∧
    ∀ (i : ℕ) (stage : Stage), k.pipeline.stages[i]? = some stage →
      ∃ clause, k.ClauseAt i stage clause ∧ k.progress.columns[i]? = some ⟨clause.timestamp, clause.aggregate⟩ := by
  have hrun := k.clauseInduction (P := fun n s => s.columns.length = n ∧
    ∀ i < n, ∀ stage, k.pipeline.stages[i]? = some stage →
      ∃ clause, k.ClauseAt i stage clause ∧ s.columns[i]? = some ⟨clause.timestamp, clause.aggregate⟩) ?_ ?_
  · obtain ⟨hlength, hcolumns⟩ := hrun
    exact ⟨hlength, fun i stage hi => hcolumns i (List.getElem?_eq_some_iff.1 hi).1 stage hi⟩
  · exact ⟨rfl, fun i hi => absurd hi (Nat.not_lt_zero i)⟩
  · rintro n s stage event clause hstage hclause ⟨hlength, hcolumns⟩
    refine ⟨by simp [StageProgress.add, hlength], fun i hi stage' hstage' => ?_⟩
    rcases Nat.lt_succ_iff_lt_or_eq.1 hi with hlt | rfl
    · obtain ⟨clause', hclause', hcolumn⟩ := hcolumns i hlt stage' hstage'
      refine ⟨clause', hclause', ?_⟩
      rw [StageProgress.add, List.getElem?_append_left (hlength.symm ▸ hlt)]
      exact hcolumn
    · rw [hstage] at hstage'
      cases hstage'
      exact ⟨clause, hclause, by simp [StageProgress.add, ← hlength]⟩

end Compilation
end LeadTime
