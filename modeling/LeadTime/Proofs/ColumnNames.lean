import LeadTime.Layers
import LeadTime.Proofs.StageName
import Mathlib

/-! The names of columns. Those of stages have the number of their stage in them and all others no digit, so that the
columns of a layer have different names. -/
namespace LeadTime

open Placeholder (Undigited)

theorem not_undigited_append_repr (text : String) (n : Nat) (rest : String) :
    ¬ Undigited (text ++ n.repr ++ rest).toList := by
  obtain ⟨d, hd⟩ := List.exists_mem_of_ne_nil _ (Sql.toList_repr_ne_nil n)
  intro h
  have hmem : d ∈ (text ++ n.repr ++ rest).toList := by
    rw [String.toList_append, String.toList_append]
    exact List.mem_append_left _ (List.mem_append_right _ hd)
  have hno := h d hmem
  rw [Sql.isDigit_of_mem_repr hd] at hno
  cases hno

theorem not_undigited_eventColumn (stage : Nat) : ¬ Undigited (eventColumn stage).toList := by
  have h := not_undigited_append_repr "e" stage ""
  rwa [String.append_empty] at h

theorem not_undigited_durationColumn (stage : Nat) : ¬ Undigited (durationColumn stage).toList := by
  have h := not_undigited_append_repr "s" stage ""
  rwa [String.append_empty] at h

/-- A number after a text without digits is read in one way only. -/
theorem append_repr_injective (text : String) (h : Undigited text.toList) :
    Function.Injective fun n : Nat => text ++ n.repr := by
  intro i j hij
  have hends : Placeholder.EndsNumber "".toList := by simp [Placeholder.EndsNumber]
  have hnum : text ++ i.repr ++ "" = text ++ j.repr ++ "" := congrArg (· ++ "") hij
  exact (Placeholder.numbered_inj h h hends hends hnum).2.1

theorem eventColumn_injective : Function.Injective eventColumn := append_repr_injective "e" (by decide)

theorem durationColumn_injective : Function.Injective durationColumn :=
  append_repr_injective "s" (by decide)

theorem nodup_append_numbered {fixed : List String} {column : Nat → String} (hfixed : fixed.Nodup)
    (hundigited : ∀ c ∈ fixed, Undigited c.toList) (hinj : Function.Injective column)
    (hdigits : ∀ i, ¬ Undigited (column i).toList) (n : Nat) : (fixed ++ (List.range n).map column).Nodup := by
  refine hfixed.append (List.nodup_range.map hinj) fun c hc hm => ?_
  obtain ⟨i, -, rfl⟩ := List.mem_map.1 hm
  exact hdigits i (hundigited _ hc)

namespace Layers

variable (l : Layers)

theorem groupColumns_cases {P : List String → Prop}
    (h : ∀ calculation issueSystem (trend stack : Bool),
      P ((Anchor.mk calculation issueSystem).identityColumns ++ (if trend then ["trend"] else []) ++
        if stack then ["stack"] else [])) : P l.groupColumns :=
  h l.anchor.calculation l.anchor.issueSystem l.trend l.stack.isSome

theorem undigited_groupColumns : ∀ c ∈ l.groupColumns, Undigited c.toList := by
  refine l.groupColumns_cases (P := fun columns => ∀ c ∈ columns, Undigited c.toList) ?_
  intro calculation issueSystem trend stack
  cases calculation <;> cases issueSystem <;> cases trend <;> cases stack <;> decide

theorem nodup_groupColumns : l.groupColumns.Nodup := by
  refine l.groupColumns_cases ?_
  intro calculation issueSystem trend stack
  cases calculation <;> cases issueSystem <;> cases trend <;> cases stack <;> decide

theorem notMem_groupColumns {column : String} (h : column ∈ [startColumn, "t", "bucket", "rating"]) :
    column ∉ l.groupColumns := by
  refine l.groupColumns_cases (P := fun columns => column ∉ columns) ?_
  intro calculation issueSystem trend stack
  revert column
  cases calculation <;> cases issueSystem <;> cases trend <;> cases stack <;> decide

/-- The columns of the two innermost layers: what tells rows apart, the start, and the time of each stage. -/
def timeColumns : List String := l.groupColumns ++ startColumn :: l.indices.map eventColumn

def secondsColumns : List String := l.groupColumns ++ l.indices.map durationColumn

def reportColumns : List String := l.secondsColumns ++ ["t"]

theorem nodup_timeColumns : l.timeColumns.Nodup := by
  have hfixed : (l.groupColumns ++ [startColumn]).Nodup :=
    l.nodup_groupColumns.append (List.nodup_singleton _) (by simpa using l.notMem_groupColumns (by decide))
  have hundigited : ∀ c ∈ l.groupColumns ++ [startColumn], Undigited c.toList := by
    intro c hc
    rcases List.mem_append.1 hc with hc | hc
    · exact l.undigited_groupColumns c hc
    · rw [List.mem_singleton.1 hc]
      decide
  rw [timeColumns, List.append_cons]
  exact nodup_append_numbered hfixed hundigited eventColumn_injective not_undigited_eventColumn _

theorem nodup_secondsColumns : l.secondsColumns.Nodup :=
  nodup_append_numbered l.nodup_groupColumns l.undigited_groupColumns durationColumn_injective
    not_undigited_durationColumn _

theorem nodup_reportColumns : l.reportColumns.Nodup := by
  refine l.nodup_secondsColumns.append (List.nodup_singleton _) ?_
  rw [List.disjoint_singleton]
  intro hm
  rcases List.mem_append.1 hm with hm | hm
  · exact l.notMem_groupColumns (by decide) hm
  · obtain ⟨i, -, hi⟩ := List.mem_map.1 hm
    exact not_undigited_durationColumn i (hi ▸ by decide)

end Layers
end LeadTime
