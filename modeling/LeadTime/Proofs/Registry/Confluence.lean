import LeadTime.Proofs.Registry.Order
import LeadTime.Proofs.StageEvent.Clause
import Mathlib

/-! The chain does not depend on the order in which its joins were asked for. Which joins are held is a matter of what
was asked for alone, each with the lines that are its own; and the ranks leave no choice of their order, since pull
requests and issues are never both held, and one stage gives no two of the joins that share its rank. -/
namespace LeadTime

open Sql

variable {context : JoinContext} {line : Join → JoinLine} {js js' : List Join}

/-- The request for a join, with the line that is supplied where the registry has none of its own. -/
def JoinRequest.of (line : Join → JoinLine) (j : Join) : JoinRequest :=
  if j.isSupplied then .supplied j (line j) else .held j

@[simp] theorem JoinRequest.asked?_of (j : Join) : (JoinRequest.of line j).asked? = some j := by
  unfold of
  split <;> rfl

def JoinContext.entry (context : JoinContext) (line : Join → JoinLine) (j : Join) : JoinEntry :=
  ⟨j, if j.isSupplied then [line j] else context.lines j, []⟩

namespace Join

theorem Reached.mono {a : Anchor} {seeds more : List Join} {j : Join} (h : Reached a seeds j) (hs : seeds ⊆ more) :
    Reached a more j := by
  induction h with
  | seed h => exact .seed (hs h)
  | dependency _ besides direct ih => exact .dependency ih besides direct

/-- The joins of stages are reached only where they are asked for themselves: nothing reads from them. -/
theorem Reached.mem_of_stage {a : Anchor} {seeds : List Join} {j : Join} {n : Nat} (h : Reached a seeds j)
    (hn : j.stage? = some n) : j ∈ seeds := by
  cases h with
  | seed h => exact h
  | dependency _ _ direct =>
    rw [(dependency_own direct).1] at hn
    cases hn

/-- Joins of equal rank are the same, one of them is the anchor's, or they belong to one stage. -/
theorem eq_of_ranksBefore {i j : Join} (a : Anchor) (hij : i.ranksBefore j = true) (hji : j.ranksBefore i = true) :
    i = j ∨ i = a.join ∨ j = a.join ∨ ∃ n, i.stage? = some n ∧ j.stage? = some n := by
  rw [ranksBefore_iff] at hij hji
  have hrank : i.rank = j.rank := Prod.ext (by omega) (by omega)
  rcases Registry.anchor_join a with ha | ha <;>
    cases i <;> cases j <;> simp_all [rank, stage?]

end Join

namespace Registry

variable {r : Registry} {j : Join}

theorem asked_of (js : List Join) : asked (js.map (.of line)) = js := by
  rw [asked, List.filterMap_map]
  exact (List.filterMap_congr fun j _ => JoinRequest.asked?_of j).trans List.filterMap_some

/-- Each entry is the one that its join has whenever it is put in. -/
def Uniform (line : Join → JoinLine) (r : Registry) : Prop := ∀ e ∈ r.entries, e = r.context.entry line e.join

theorem Uniform.request (h : r.Uniform line) (j : Join) : (r.request (.of line j)).Uniform line := by
  refine request_induction h (fun s i lines hc hs _ _ hputs e he => ?_) fun i c hreq => ?_
  · rcases List.mem_append.1 he with he | he
    · exact hs e he
    · rw [List.mem_singleton.1 he, context_push, hc]
      have hlines : lines = if i.isSupplied then [line i] else r.context.lines i := by
        rcases hputs with ⟨hn, rfl⟩ | ⟨hreq, rfl⟩ | ⟨l, hreq, rfl⟩
        · rw [isSupplied_of_mem_needed hn]
          rfl
        · unfold JoinRequest.of at hreq
          split at hreq
          · cases hreq
          · cases hreq
            rw [if_neg ‹_›]
        · unfold JoinRequest.of at hreq
          split at hreq
          · cases hreq
            rw [if_pos ‹_›]
          · cases hreq
      rw [hlines]
      rfl
  · unfold JoinRequest.of at hreq
    split at hreq <;> cases hreq

theorem Uniform.requestAll (h : r.Uniform line) : (r.requestAll (js.map (.of line))).Uniform line := by
  induction js generalizing r with
  | nil => exact h
  | cons j rest ih => exact ih (h.request j)

theorem ordered_eq_of_uniform (h : r.Uniform line) :
    r.ordered = (r.ordered.map (·.join)).map (r.context.entry line) := by
  rw [List.map_map]
  exact (List.map_id' _).symm.trans (List.map_congr_left fun e he => h e (mem_ordered.1 he))

theorem holds_eq_of_same (same : ∀ j, j ∈ js ↔ j ∈ js') :
    ((empty context).requestAll (js.map (.of line))).holds j = true ↔
      ((empty context).requestAll (js'.map (.of line))).holds j = true := by
  rw [holds_requestAll_empty_iff, holds_requestAll_empty_iff, asked_of, asked_of]
  exact and_congr_right fun _ => ⟨fun h => h.mono fun i hi => (same i).1 hi, fun h => h.mono fun i hi => (same i).2 hi⟩

theorem joins_perm_of_same (same : ∀ j, j ∈ js ↔ j ∈ js') :
    (((empty context).requestAll (js.map (.of line))).entries.map (·.join)).Perm
      (((empty context).requestAll (js'.map (.of line))).entries.map (·.join)) := by
  rw [List.perm_ext_iff_of_nodup (standing_empty context).requestAll.nodup (standing_empty context).requestAll.nodup]
  intro j
  rw [mem_joins_iff, mem_joins_iff, holds_eq_of_same same]

theorem eq_of_held (single : ∀ i ∈ js, ∀ j ∈ js, ∀ n, i.stage? = some n → j.stage? = some n → i = j) {i : Join}
    (hi : ((empty context).requestAll (js.map (.of line))).holds i = true)
    (hj : ((empty context).requestAll (js.map (.of line))).holds j = true)
    (hij : i.ranksBefore j = true) (hji : j.ranksBefore i = true) : i = j := by
  rw [holds_requestAll_empty_iff, asked_of] at hi hj
  rcases Join.eq_of_ranksBefore context.anchor hij hji with h | h | h | ⟨n, hin, hjn⟩
  · exact h
  · exact absurd h hi.1
  · exact absurd h hj.1
  · exact single i (hi.2.mem_of_stage hin) j (hj.2.mem_of_stage hjn) n hin hjn

theorem joins_ordered_eq_of_same (same : ∀ j, j ∈ js ↔ j ∈ js')
    (single : ∀ i ∈ js, ∀ j ∈ js, ∀ n, i.stage? = some n → j.stage? = some n → i = j) :
    ((empty context).requestAll (js.map (.of line))).ordered.map (·.join) =
      ((empty context).requestAll (js'.map (.of line))).ordered.map (·.join) := by
  refine List.Perm.eq_of_pairwise (fun i j hi hj => ?_) (pairwise_joins_ordered _) (pairwise_joins_ordered _) ?_
  · rw [mem_joins_ordered] at hi hj
    exact eq_of_held single hi ((holds_eq_of_same same).2 hj)
  · exact ((ordered_perm _).map _).trans ((joins_perm_of_same same).trans ((ordered_perm _).map _).symm)

/-- Requests for the same joins write the same chain, however often and in whatever order each was asked for. -/
theorem text_eq_of_same (same : ∀ j, j ∈ js ↔ j ∈ js')
    (single : ∀ i ∈ js, ∀ j ∈ js, ∀ n, i.stage? = some n → j.stage? = some n → i = j) :
    ((empty context).requestAll (js.map (.of line))).text =
      ((empty context).requestAll (js'.map (.of line))).text := by
  have uniform (ks : List Join) : ((empty context).requestAll (ks.map (.of line))).Uniform line :=
    Uniform.requestAll fun e he => by simp [empty] at he
  rw [text_eq, text_eq, ordered_eq_of_uniform (uniform js), ordered_eq_of_uniform (uniform js'),
    joins_ordered_eq_of_same same single, context_requestAll, context_requestAll]

/-- The joins of two stages, asked for after what they read from, or before it and one of them twice. -/
theorem text_eq_of_shuffled :
    ((empty ⟨"public", ⟨.issueVelocity, .issueTracker⟩, true, true⟩).requestAll
        ([.commit, .review, .jobRun 1, .label 2].map (.of fun j => .verbatim j.tableAlias))).text =
      ((empty ⟨"public", ⟨.issueVelocity, .issueTracker⟩, true, true⟩).requestAll
        ([.label 2, .jobRun 1, .review, .label 2, .commit].map (.of fun j => .verbatim j.tableAlias))).text :=
  text_eq_of_same (by intro j; simp; tauto) (by simp [Join.stage?])

end Registry
end LeadTime
