import LeadTime.Proofs.Registry.Chain
import Mathlib

/-! The runs of one stage, and conditions on them. To put conditions into the select of a stage's runs and then to
request a join comes to the same as requesting it first, so that requests which differ by such conditions alone leave
registries that do. -/
namespace LeadTime

open Sql

def Sql.TableSelect.restrict (more : List Expr) (s : TableSelect) : TableSelect :=
  { s with conditions := s.conditions ++ more }

/-- The source under further conditions; of two selects that are paired, the first takes them. -/
def Sql.Source.restrict (more : List Expr) : Source → Source
  | .table t => .table t
  | .select s => .select (s.restrict more)
  | .paired s => .paired { s with left := s.left.restrict more }

def Sql.JoinLine.restrict (more : List Expr) : JoinLine → JoinLine
  | .join side source as on => .join side (source.restrict more) as on
  | .verbatim text => .verbatim text

/-- The lines of a join, with further conditions on the runs of a stage where they are those runs. -/
def Join.restrictLines (stage : Nat) (more : List Expr) (j : Join) (lines : List JoinLine) : List JoinLine :=
  if j = .jobRun stage then lines.map (·.restrict more) else lines

def JoinEntry.restrict (stage : Nat) (more : List Expr) (e : JoinEntry) : JoinEntry :=
  { e with lines := e.join.restrictLines stage more e.lines }

def Registry.restrict (stage : Nat) (more : List Expr) (r : Registry) : Registry :=
  { r with entries := r.entries.map (·.restrict stage more) }

def JoinRequest.restrict (stage : Nat) (more : List Expr) : JoinRequest → JoinRequest
  | .supplied j line => .supplied j (if j = .jobRun stage then line.restrict more else line)
  | .held j => .held j
  | .condition j c => .condition j c

theorem JoinRequest.restrict_of_ne {stage : Nat} {more : List Expr} {req : JoinRequest}
    (h : req.join ≠ .jobRun stage) : req.restrict stage more = req := by
  cases req with
  | held | condition => rfl
  | supplied j line => exact congrArg (JoinRequest.supplied j) (if_neg h)

theorem JoinRequest.map_restrict_of_ne {stage : Nat} {more : List Expr} {reqs : List JoinRequest}
    (h : ∀ req ∈ reqs, req.join ≠ .jobRun stage) : reqs.map (·.restrict stage more) = reqs :=
  (List.map_congr_left fun req hr => restrict_of_ne (h req hr)).trans (List.map_id' reqs)

section Nothing

theorem Sql.Source.restrict_nil (s : Source) : s.restrict [] = s := by
  cases s <;> simp [restrict, TableSelect.restrict]

theorem Sql.JoinLine.restrict_nil (line : JoinLine) : line.restrict [] = line := by
  cases line with
  | join side source as on => rw [restrict, source.restrict_nil]
  | verbatim => rfl

theorem JoinRequest.restrict_nil (stage : Nat) (req : JoinRequest) : req.restrict stage [] = req := by
  cases req with
  | held | condition => rfl
  | supplied j line => rw [restrict, line.restrict_nil, ite_self]

end Nothing

namespace Registry

variable {r : Registry} {stage : Nat} {more : List Expr} {j : Join} {lines : List JoinLine}

@[simp] theorem context_restrict : (r.restrict stage more).context = r.context := rfl

@[simp] theorem holds_restrict : (r.restrict stage more).holds j = r.holds j := by
  rw [holds, restrict, List.any_map]
  rfl

@[simp] theorem isJoined_restrict : (r.restrict stage more).isJoined j = r.isJoined j := by
  rw [isJoined, holds_restrict]
  rfl

theorem restrict_push : (r.push j lines).restrict stage more =
    (r.restrict stage more).push j (j.restrictLines stage more lines) := by
  simp [push, restrict, JoinEntry.restrict]

theorem restrict_hold : (r.hold j lines).restrict stage more =
    (r.restrict stage more).hold j (j.restrictLines stage more lines) := by
  simp only [hold, isJoined_restrict]
  split
  · rfl
  · exact restrict_push

theorem restrictLines_lines (context : JoinContext) (j : Join) :
    j.restrictLines stage more (context.lines j) = context.lines j := by
  unfold Join.restrictLines
  split
  · rename_i h
    rw [h]
    rfl
  · rfl

theorem restrict_holdAll (joins : List Join) :
    (r.holdAll joins).restrict stage more = (r.restrict stage more).holdAll joins := by
  induction joins generalizing r with
  | nil => rfl
  | cons j rest ih =>
    have hfirst (s : Registry) : s.holdAll (j :: rest) = (s.hold j (s.context.lines j)).holdAll rest := rfl
    rw [hfirst, hfirst, ih, restrict_hold, restrictLines_lines, context_restrict]

theorem restrict_addCondition (c : Expr) :
    (r.addCondition j c).restrict stage more = (r.restrict stage more).addCondition j c := by
  simp only [addCondition, restrict, List.map_map]
  congr 1
  refine List.map_congr_left fun e _ => ?_
  by_cases he : e.join = j <;> simp [JoinEntry.restrict, he]

theorem restrict_request (req : JoinRequest) :
    (r.request req).restrict stage more = (r.restrict stage more).request (req.restrict stage more) := by
  cases req with
  | held j =>
    simp only [request, JoinRequest.restrict, require, isJoined_restrict]
    split
    · rfl
    · rw [restrict_hold, restrict_holdAll, restrictLines_lines, context_restrict]
  | supplied j line =>
    have hline : j.restrictLines stage more [line] = [if j = .jobRun stage then line.restrict more else line] := by
      unfold Join.restrictLines
      split <;> rfl
    simp only [request, JoinRequest.restrict, requireLine, isJoined_restrict]
    split
    · rfl
    · rw [restrict_hold, restrict_holdAll, hline, context_restrict]
  | condition j c => exact restrict_addCondition c

theorem ordered_restrict : (r.restrict stage more).ordered = r.ordered.map (·.restrict stage more) := by
  have hsort : r.ordered.map (·.restrict stage more) =
      (r.entries.map (·.restrict stage more)).mergeSort fun a b => a.join.ranksBefore b.join :=
    List.map_mergeSort fun _ _ _ _ => rfl
  exact hsort.symm

/-- The chain has the conditions in the line of the runs, and all other lines as they are. -/
theorem exists_lines_restrict (hnodup : (r.entries.map (·.join)).Nodup) {e : JoinEntry} (he : e ∈ r.entries)
    (hj : e.join = .jobRun stage) {line : JoinLine} (hl : e.lines = [line]) (hc : e.conditions = []) :
    ∃ above below, r.lines = above ++ line :: below ∧
      (r.restrict stage more).lines = above ++ line.restrict more :: below := by
  obtain ⟨before, after, hordered⟩ := List.append_of_mem (mem_ordered.2 he)
  have hdistinct : ((before ++ e :: after).map (·.join)).Nodup := by
    rw [← hordered]
    exact ((List.mergeSort_perm r.entries _).map _).nodup_iff.2 hnodup
  have hself : e.written = [line] := by rw [JoinEntry.written, hl, hc, extendLast_nil]
  have hrestricted : (e.restrict stage more).written = [line.restrict more] := by
    rw [JoinEntry.written, JoinEntry.restrict, hj, Join.restrictLines, if_pos rfl, hl, hc, extendLast_nil, List.map_singleton]
  have hother {entries : List JoinEntry} (h : ∀ i ∈ entries, i.join ≠ e.join) :
      (entries.map (·.restrict stage more)).flatMap JoinEntry.written = entries.flatMap JoinEntry.written := by
    rw [List.flatMap_map]
    refine List.flatMap_congr fun i hi => ?_
    rw [JoinEntry.restrict, Join.restrictLines, if_neg (hj ▸ h i hi)]
  rw [List.map_append, List.map_cons, List.nodup_middle, List.nodup_cons, List.mem_append, not_or] at hdistinct
  have hbefore := hother fun i hi h => hdistinct.1.1 (h ▸ List.mem_map_of_mem hi)
  have hafter := hother fun i hi h => hdistinct.1.2 (h ▸ List.mem_map_of_mem hi)
  refine ⟨before.flatMap JoinEntry.written, after.flatMap JoinEntry.written, ?_, ?_⟩
  · rw [lines, hordered, List.flatMap_append, List.flatMap_cons, hself]
    rfl
  · rw [lines, ordered_restrict, hordered, List.map_append, List.map_cons, List.flatMap_append, List.flatMap_cons,
      hrestricted, hbefore, hafter]
    rfl

/-- Requests that differ by conditions on the runs of a stage leave registries that differ by them. -/
theorem restrict_requestAll (reqs : List JoinRequest) :
    (r.requestAll reqs).restrict stage more =
      (r.restrict stage more).requestAll (reqs.map (·.restrict stage more)) := by
  induction reqs generalizing r with
  | nil => rfl
  | cons req rest ih => rw [List.map_cons, requestAll_cons, requestAll_cons, ih, restrict_request]

/-- Each stage whose runs are held has one line for them, of which `P` says what it is. -/
def RunsAre (P : Nat → JoinLine → Prop) (r : Registry) : Prop :=
  ∀ e ∈ r.entries, ∀ stage, e.join = .jobRun stage → ∃ line, e.lines = [line] ∧ P stage line

variable {P : Nat → JoinLine → Prop} {req : JoinRequest} {reqs : List JoinRequest}

theorem RunsAre.request (h : r.RunsAre P) (held : ∀ stage, req ≠ .held (.jobRun stage))
    (supplied : ∀ stage line, req = .supplied (.jobRun stage) line → P stage line) : (r.request req).RunsAre P := by
  refine request_induction (P := fun s => s.RunsAre P) h (fun s j lines _ hs _ _ hputs e he stage hj => ?_)
    fun j c _ e he stage hj => ?_
  · rcases List.mem_append.1 he with he | he
    · exact hs e he stage hj
    · rw [List.mem_singleton.1 he] at hj ⊢
      obtain rfl : j = .jobRun stage := hj
      rcases hputs with ⟨hn, -⟩ | ⟨hreq, -⟩ | ⟨line, hreq, rfl⟩
      · cases isSupplied_of_mem_needed hn
      · exact absurd hreq (held stage)
      · exact ⟨line, rfl, supplied stage line hreq⟩
  · obtain ⟨e, hm, rfl⟩ := List.mem_map.1 he
    split at hj <;> split <;> exact h e hm stage hj

theorem RunsAre.requestAll (h : r.RunsAre P) (held : ∀ stage, .held (.jobRun stage) ∉ reqs)
    (supplied : ∀ stage line, .supplied (.jobRun stage) line ∈ reqs → P stage line) : (r.requestAll reqs).RunsAre P := by
  induction reqs generalizing r with
  | nil => exact h
  | cons req rest ih =>
    refine ih (h.request (fun stage hr => held stage (by simp [hr])) fun stage line hr => supplied stage line (by simp [hr]))
      (fun stage hr => held stage (List.mem_cons_of_mem _ hr))
      fun stage line hr => supplied stage line (List.mem_cons_of_mem _ hr)

end Registry
end LeadTime
