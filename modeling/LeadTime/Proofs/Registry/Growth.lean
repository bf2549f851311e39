import LeadTime.Join.Registry
import Mathlib

/-! How a registry grows. Whatever is asked of it, it only puts in joins that it lacks, each after all that the join
reads from, or adds conditions to joins that it holds. `request_induction` carries a property of registries over
these two steps; the rest says which joins can be read before and after. -/
namespace LeadTime

open Sql

def JoinRequest.join : JoinRequest → Join
  | .held j | .supplied j _ | .condition j _ => j

/-- The joins that a request may put in, each with its lines: those that its join needs and the join itself, with
the registry's own lines or with the line that was handed in. -/
def JoinRequest.PutsIn (context : JoinContext) (req : JoinRequest) (j : Join) (lines : List JoinLine) : Prop :=
  j ∈ Registry.needed context req.join ∧ lines = context.lines j ∨
    req = .held j ∧ lines = context.lines j ∨ ∃ line, req = .supplied j line ∧ lines = [line]

theorem JoinRequest.PutsIn.join {context : JoinContext} {req : JoinRequest} {j : Join} {lines : List JoinLine}
    (h : req.PutsIn context j lines) : j = req.join ∨ j ∈ Registry.needed context req.join := by
  rcases h with ⟨h, -⟩ | ⟨rfl, -⟩ | ⟨line, rfl, -⟩
  · exact Or.inr h
  · exact Or.inl rfl
  · exact Or.inl rfl

namespace Registry

variable {r : Registry} {j d : Join} {lines : List JoinLine} {req : JoinRequest} {reqs : List JoinRequest}

theorem isAnchor_iff : r.isAnchor j = true ↔ j = r.context.anchor.join := by simp [isAnchor]

theorem holds_iff : r.holds j = true ↔ ∃ e ∈ r.entries, e.join = j := by simp [holds]

theorem isJoined_iff : r.isJoined j = true ↔ j = r.context.anchor.join ∨ r.holds j = true := by
  simp [isJoined, isAnchor]

theorem isJoined_anchor : r.isJoined r.context.anchor.join = true := isJoined_iff.2 (Or.inl rfl)

theorem ne_anchor_of_notJoined (h : r.isJoined j = false) : j ≠ r.context.anchor.join := by
  rintro rfl
  rw [isJoined_anchor] at h
  cases h

@[simp] theorem context_push : (r.push j lines).context = r.context := rfl

@[simp] theorem holds_push : (r.push j lines).holds d = true ↔ r.holds d = true ∨ d = j := by
  simp [push, holds, eq_comm (a := j)]

theorem isJoined_push : (r.push j lines).isJoined d = true ↔ r.isJoined d = true ∨ d = j := by
  simp only [isJoined_iff, holds_push, context_push, or_assoc]

@[simp] theorem context_addCondition (c : Expr) : (r.addCondition j c).context = r.context := rfl

@[simp] theorem holds_addCondition (c : Expr) : (r.addCondition j c).holds d = r.holds d := by
  simp only [holds, addCondition, List.any_map, Function.comp_def]
  congr 1
  funext e
  split <;> rfl

@[simp] theorem isJoined_addCondition (c : Expr) : (r.addCondition j c).isJoined d = r.isJoined d := by
  rw [isJoined, holds_addCondition]
  rfl

@[simp] theorem joins_push : (r.push j lines).entries.map (·.join) = r.entries.map (·.join) ++ [j] := by simp [push]

@[simp] theorem joins_addCondition (c : Expr) :
    (r.addCondition j c).entries.map (·.join) = r.entries.map (·.join) := by
  simp only [addCondition, List.map_map]
  refine List.map_congr_left fun e _ => ?_
  simp only [Function.comp_apply]
  split <;> rfl

theorem mem_joins_iff : d ∈ r.entries.map (·.join) ↔ r.holds d = true := by rw [List.mem_map, holds_iff]

theorem notHolds_of_notJoined (h : r.isJoined j = false) : r.holds j = false := by
  rw [Bool.eq_false_iff] at h ⊢
  exact fun hh => h (isJoined_iff.2 (Or.inr hh))

theorem nodup_push (h : (r.entries.map (·.join)).Nodup) (hj : r.isJoined j = false) :
    ((r.push j lines).entries.map (·.join)).Nodup := by
  rw [joins_push]
  refine List.nodup_append'.2 ⟨h, by simp, ?_⟩
  rw [List.disjoint_singleton, mem_joins_iff, notHolds_of_notJoined hj]
  simp

/-- Each join comes after what it needs, given the joins that are known to be there. -/
def Chained (context : JoinContext) : (known joins : List Join) → Prop
  | _, [] => True
  | known, j :: rest => (∀ d ∈ needed context j, d ∈ known) ∧ Chained context (known ++ [j]) rest

theorem anchor_join (a : Anchor) : a.join = .issue ∨ a.join = .pullRequest := by
  unfold Anchor.join
  split
  · exact Or.inl rfl
  · exact Or.inr rfl

theorem chained_needed (context : JoinContext) (j : Join) : Chained context [] (needed context j) := by
  rcases anchor_join context.anchor with h | h <;>
    cases j <;> simp [needed, Join.dependencies, h, Chained]

theorem mem_needed_of_dependency (context : JoinContext) (h : j.dependency? = some d) :
    d = context.anchor.join ∨ d ∈ needed context j := by
  rcases anchor_join context.anchor with ha | ha <;>
    cases j <;> simp only [Join.dependency?, Option.some.injEq, reduceCtorEq] at h <;> subst h <;>
    simp [needed, Join.dependencies, ha]

section Induction

variable {P : Registry → Prop}

theorem hold_induction (h : P r)
    (push : r.isJoined j = false → P (r.push j lines)) : P (r.hold j lines) := by
  unfold hold
  split
  · exact h
  · rename_i hj
    exact push (by simpa using hj)

theorem isJoined_hold : (r.hold j lines).isJoined d = true ↔ r.isJoined d = true ∨ d = j := by
  unfold hold
  split
  · rename_i hj
    exact ⟨Or.inl, fun h => h.elim id fun e => e ▸ hj⟩
  · exact isJoined_push

@[simp] theorem context_hold : (r.hold j lines).context = r.context :=
  hold_induction (P := fun s => s.context = r.context) rfl fun _ => rfl

@[simp] theorem context_holdAll (joins : List Join) : (r.holdAll joins).context = r.context := by
  induction joins generalizing r with
  | nil => rfl
  | cons j rest ih => exact (ih (r := r.hold j (r.context.lines j))).trans context_hold

theorem isJoined_holdAll {joins : List Join} :
    (r.holdAll joins).isJoined d = true ↔ r.isJoined d = true ∨ d ∈ joins := by
  induction joins generalizing r with
  | nil => simp [holdAll]
  | cons j rest ih =>
    rw [List.mem_cons, ← or_assoc, ← isJoined_hold]
    exact ih

theorem holdAll_induction {known joins : List Join} (chained : Chained r.context known joins)
    (hknown : ∀ d ∈ known, r.isJoined d = true) (h : P r)
    (push : ∀ (s : Registry) (j : Join), s.context = r.context → P s → s.isJoined j = false →
      (∀ d ∈ needed r.context j, s.isJoined d = true) → j ∈ joins → P (s.push j (r.context.lines j))) :
    P (r.holdAll joins) := by
  induction joins generalizing r known with
  | nil => exact h
  | cons j rest ih =>
    obtain ⟨hneeded, hrest⟩ := chained
    have hj : P (r.hold j (r.context.lines j)) :=
      hold_induction h fun hn =>
        push r j rfl h hn (fun d hd => hknown d (hneeded d hd)) List.mem_cons_self
    have hc : (r.hold j (r.context.lines j)).context = r.context := context_hold
    have hknown : ∀ d ∈ known ++ [j], (r.hold j (r.context.lines j)).isJoined d = true := by
      intro d hd
      rw [isJoined_hold]
      rcases List.mem_append.1 hd with hd | hd
      · exact Or.inl (hknown d hd)
      · exact Or.inr (List.mem_singleton.1 hd)
    refine ih ?_ hknown hj ?_
    · rwa [hc]
    · rw [hc]
      exact fun s i hs hp hn hd hi => push s i hs hp hn hd (List.mem_cons_of_mem _ hi)

/-- A property of registries that each new join keeps, and each new condition, is kept by a request. -/
theorem request_induction (h : P r)
    (push : ∀ (s : Registry) (j : Join) (lines : List JoinLine), s.context = r.context → P s →
      s.isJoined j = false → (∀ d ∈ needed r.context j, s.isJoined d = true) →
      req.PutsIn r.context j lines → P (s.push j lines))
    (condition : ∀ j c, req = .condition j c → P (r.addCondition j c)) : P (r.request req) := by
  have hall : P (r.holdAll (needed r.context req.join)) :=
    holdAll_induction (chained_needed _ _) (by simp) h
      fun s j hc hs hn hneeded hj => push s j _ hc hs hn hneeded (Or.inl ⟨hj, rfl⟩)
  have hlast (lines : List JoinLine) (hp : req.PutsIn r.context req.join lines) :
      P ((r.holdAll (needed r.context req.join)).hold req.join lines) :=
    hold_induction hall fun hn => push _ _ _ (context_holdAll _) hall hn
      (fun d hd => isJoined_holdAll.2 (Or.inr hd)) hp
  cases req with
  | held j =>
    simp only [request, require]
    split
    · exact h
    · exact hlast _ (Or.inr (Or.inl ⟨rfl, rfl⟩))
  | supplied j line =>
    simp only [request, requireLine]
    split
    · exact h
    · exact hlast _ (Or.inr (Or.inr ⟨line, rfl, rfl⟩))
  | condition j c => exact condition j c rfl

end Induction

@[simp] theorem context_request (req : JoinRequest) : (r.request req).context = r.context :=
  request_induction (P := fun s => s.context = r.context) rfl (fun _ _ _ _ h _ _ _ => h) fun _ _ _ => rfl

@[simp] theorem requestAll_nil : r.requestAll [] = r := rfl

@[simp] theorem requestAll_cons : r.requestAll (req :: reqs) = (r.request req).requestAll reqs := rfl

theorem requestAll_append (more : List JoinRequest) :
    r.requestAll (reqs ++ more) = (r.requestAll reqs).requestAll more := List.foldl_append

@[simp] theorem context_requestAll : (r.requestAll reqs).context = r.context := by
  induction reqs generalizing r with
  | nil => rfl
  | cons req rest ih => rw [requestAll_cons, ih, context_request]

theorem isJoined_request (h : r.isJoined d = true) : (r.request req).isJoined d = true :=
  request_induction (P := fun s => s.isJoined d = true) h
    (fun _ _ _ _ hs _ _ _ => isJoined_push.2 (Or.inl hs)) fun _ _ _ => by simpa using h

theorem isJoined_requestAll (h : r.isJoined d = true) : (r.requestAll reqs).isJoined d = true := by
  induction reqs generalizing r with
  | nil => exact h
  | cons req rest ih => exact ih (isJoined_request h)

theorem isJoined_require : (r.require j).isJoined j = true := by
  unfold require
  split
  · assumption
  · exact isJoined_hold.2 (Or.inr rfl)

theorem isJoined_requireLine {line : JoinLine} : (r.requireLine j line).isJoined j = true := by
  unfold requireLine
  split
  · assumption
  · exact isJoined_hold.2 (Or.inr rfl)

theorem isJoined_of_mem_held (h : .held j ∈ reqs) : (r.requestAll reqs).isJoined j = true := by
  induction reqs generalizing r with
  | nil => simp at h
  | cons req rest ih =>
    rcases List.mem_cons.1 h with rfl | h
    · exact isJoined_requestAll (r := r.require j) isJoined_require
    · exact ih h

theorem isJoined_of_mem_supplied {line : JoinLine} (h : .supplied j line ∈ reqs) :
    (r.requestAll reqs).isJoined j = true := by
  induction reqs generalizing r with
  | nil => simp at h
  | cons req rest ih =>
    rcases List.mem_cons.1 h with rfl | h
    · exact isJoined_requestAll (r := r.requireLine j line) isJoined_requireLine
    · exact ih h

theorem mem_dependencies_of_needed {context : JoinContext} (h : d ∈ needed context j) :
    d ∈ j.dependencies :=
  List.mem_reverse.1 ((List.takeWhile_sublist _).subset (List.mem_reverse.1 h))

/-- What is new after a request is its join, or a join that this one reads from. -/
theorem holds_request (h : (r.request req).holds d = true) :
    r.holds d = true ∨ d = req.join ∨ d ∈ req.join.dependencies := by
  refine request_induction
    (P := fun s => s.holds d = true → r.holds d = true ∨ d = req.join ∨ d ∈ req.join.dependencies)
    Or.inl (fun s j lines _ hs _ _ hj hd => ?_) (fun j c hreq hd => Or.inl (by simpa using hd)) h
  rcases holds_push.1 hd with hd | rfl
  · exact hs hd
  · exact Or.inr (hj.join.imp_right mem_dependencies_of_needed)

theorem holds_requestAll {d : Join} (h : (r.requestAll reqs).holds d = true) :
    r.holds d = true ∨ ∃ req ∈ reqs, d = req.join ∨ d ∈ req.join.dependencies := by
  induction reqs generalizing r with
  | nil => exact Or.inl h
  | cons req rest ih =>
    rcases ih h with h | ⟨req', hm, hd⟩
    · exact (holds_request h).imp_right fun hd => ⟨req, List.mem_cons_self, hd⟩
    · exact Or.inr ⟨req', List.mem_cons_of_mem _ hm, hd⟩

theorem holds_of_isJoined {j : Join} (h : r.isJoined j = true) (hj : j ≠ r.context.anchor.join) :
    r.holds j = true := (isJoined_iff.1 h).resolve_left hj

end Registry
end LeadTime
