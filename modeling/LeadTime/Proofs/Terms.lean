import LeadTime.Proofs.Sql.Legible
import LeadTime.StageEvent.Clause
import Mathlib

/-! What is true of terms however they are put together: their conditions have the placeholders that they bind, read
back as text, and read from few tables; and the names that a stage binds hold its number. One lemma says it of
each way in which terms are made. -/
namespace LeadTime

open Sql

namespace Placeholder

/-- The name holds a digit. No name that is bound once for the whole query does. -/
def Numbered (name : String) : Prop := ∃ c ∈ name.toList, c.isDigit = true

instance (name : String) : Decidable (Numbered name) :=
  decidable_of_iff (name.toList.any Char.isDigit = true) List.any_eq_true

@[simp] theorem numbered_append (s t : String) : Numbered (s ++ t) ↔ Numbered s ∨ Numbered t := by
  simp only [Numbered, String.toList_append, List.mem_append, or_and_right, exists_or]

@[simp] theorem numbered_repr (n : Nat) : Numbered n.repr := by
  obtain ⟨c, cs, h⟩ := List.exists_cons_of_ne_nil (toList_repr_ne_nil n)
  have hc : c ∈ n.repr.toList := by rw [h]; exact List.mem_cons_self
  exact ⟨c, hc, isDigit_of_mem_repr hc⟩

/-- A name that a stage may bind: it reads as one name and holds a digit. -/
structure OfStage (name : String) : Prop where
  isName : IsName name
  numbered : Numbered name

section Names

variable (stage i j : Nat) {s t : String}

theorem ofStage_value : OfStage (value stage) where
  isName := (IsName.append (s := "s") (by decide) (nameChars_repr stage)).append (by decide)
  numbered := by simp [value]

theorem ofStage_indexedValue : OfStage (indexedValue stage i) where
  isName := ((ofStage_value stage).isName.append (by decide)).append (nameChars_repr i)
  numbered := by simp [indexedValue]

theorem ofStage_name : OfStage (name stage i) where
  isName := ((IsName.append (s := "s") (by decide) (nameChars_repr stage)).append (by decide)).append
    (nameChars_repr i)
  numbered := by simp [name]

theorem ofStage_endTimeStart : OfStage (endTimeStart stage) where
  isName := (IsName.append (s := "s") (by decide) (nameChars_repr stage)).append (by decide)
  numbered := by simp [endTimeStart]

theorem ofStage_endTimeStop : OfStage (endTimeStop stage) where
  isName := (IsName.append (s := "s") (by decide) (nameChars_repr stage)).append (by decide)
  numbered := by simp [endTimeStop]

theorem ofStage_metadataValue : OfStage (metadataValue stage i j) where
  isName := ((((isName_repr stage).append (by decide)).append (nameChars_repr i)).append (by decide)).append
    (nameChars_repr j)
  numbered := by simp [metadataValue]

theorem ofStage_metadataOther : OfStage (metadataOther stage i j) where
  isName := (ofStage_metadataValue stage i j).isName.append (by decide)
  numbered := by simp [metadataOther, metadataValue]

theorem ofStage_metadataPattern (hs : NameChars s) (ht : NameChars t) :
    OfStage (metadataPattern stage s t) where
  isName := (((((IsName.append (s := "metadata") (by decide) hs).append (by decide)).append ht).append
    (by decide)).append (nameChars_repr stage))
  numbered := by simp [metadataPattern]

theorem ofStage_field (hs : IsName s) : OfStage (field stage s) where
  isName := (hs.append (by decide)).append (nameChars_repr stage)
  numbered := by simp [field]

theorem ofStage_excluded (hs : NameChars s) : OfStage (excluded stage s) where
  isName := ((IsName.append (s := "excl_") (by decide) hs).append (by decide)).append (nameChars_repr stage)
  numbered := by simp [excluded]

end Names

end Placeholder

namespace Terms

variable {a b : Terms} {ts : List Terms} {aliases more : List String}

@[simp] theorem conditions_none : none.conditions = [] := rfl
@[simp] theorem bindings_none : none.bindings = [] := rfl
@[simp] theorem conditions_append (a b : Terms) : (a ++ b).conditions = a.conditions ++ b.conditions := rfl
@[simp] theorem bindings_append (a b : Terms) : (a ++ b).bindings = a.bindings ++ b.bindings := rfl

def placeholders (t : Terms) : List String := t.conditions.flatMap Expr.placeholders

def names (t : Terms) : List String := t.bindings.map Prod.fst

@[simp] theorem placeholders_append (a b : Terms) : (a ++ b).placeholders = a.placeholders ++ b.placeholders := by
  simp [placeholders]

@[simp] theorem names_append (a b : Terms) : (a ++ b).names = a.names ++ b.names := by simp [names]

/-- The conditions have the placeholders that are bound, read back, and read from the given tables; the names
are those of a stage. -/
structure Fit (aliases : List String) (t : Terms) : Prop where
  balanced : ∀ name, name ∈ t.placeholders ↔ name ∈ t.names
  legible : ∀ c ∈ t.conditions, c.Legible
  reads : ∀ c ∈ t.conditions, c.tables ⊆ aliases
  named : ∀ name ∈ t.names, Placeholder.OfStage name

theorem Fit.none : Fit aliases none := ⟨by simp [placeholders, names], by simp, by simp, by simp [names]⟩

theorem Fit.append (ha : a.Fit aliases) (hb : b.Fit aliases) : (a ++ b).Fit aliases where
  balanced name := by
    rw [placeholders_append, names_append, List.mem_append, List.mem_append, ha.balanced, hb.balanced]
  legible c hc := (List.mem_append.1 hc).elim (ha.legible c) (hb.legible c)
  reads c hc := (List.mem_append.1 hc).elim (ha.reads c) (hb.reads c)
  named name hn := by
    rw [names_append] at hn
    exact (List.mem_append.1 hn).elim (ha.named name) (hb.named name)

theorem Fit.all (h : ∀ t ∈ ts, t.Fit aliases) : (all ts).Fit aliases := by
  induction ts with
  | nil => exact .none
  | cons t rest ih =>
    rw [List.forall_mem_cons] at h
    exact h.1.append (ih h.2)

theorem Fit.anyOf (h : ∀ t ∈ ts, t.Fit aliases) : (anyOf ts).Fit aliases := by
  cases ts with
  | nil => exact .none
  | cons t rest =>
    have hall := Fit.all h
    refine ⟨fun name => ?_, ?_, ?_, hall.named⟩
    · simpa [Terms.anyOf, placeholders, names] using hall.balanced name
    · simpa [Terms.anyOf] using hall.legible
    · simp only [Terms.anyOf, List.forall_mem_singleton, Expr.anyOf, Expr.seen_group, Expr.tables_chain]
      intro name hn
      obtain ⟨c, hc, hn⟩ := List.mem_flatMap.1 hn
      exact hall.reads c hc hn

theorem Fit.mono (h : a.Fit aliases) (hs : aliases ⊆ more) : a.Fit more :=
  ⟨h.balanced, h.legible, fun c hc => List.Subset.trans (h.reads c hc) hs, h.named⟩

theorem Fit.silent {c : Expr} (hp : c.placeholders = []) (hc : c.Legible) (ht : c.tables ⊆ aliases) :
    Fit aliases ⟨[c], []⟩ :=
  ⟨by simp [placeholders, names, hp], by simpa using hc, by simpa using ht, by simp [names]⟩

theorem Fit.single {c : Expr} {name : String} {value : ParamValue} (hp : c.placeholders = [name])
    (hc : c.Legible) (ht : c.tables ⊆ aliases) (hn : Placeholder.OfStage name) :
    Fit aliases ⟨[c], [(name, value)]⟩ :=
  ⟨by simp [placeholders, names, hp], by simpa using hc, by simpa using ht, by simpa [names] using hn⟩

end Terms
end LeadTime
