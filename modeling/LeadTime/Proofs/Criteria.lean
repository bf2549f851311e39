import LeadTime.Proofs.Bindings
import LeadTime.Proofs.Except
import LeadTime.Proofs.Sql.Legible
import LeadTime.Restriction
import Mathlib

/-! What criteria say of a table: predicates that read from it alone and read back as text, whose names start with the
table's. They bind what they write, unless a criterion goes by the name under which the unit's predicate stands. -/
namespace LeadTime

open Sql

namespace Criterion

theorem isNameChar_of_isColumnChar {c : Char} (h : isColumnChar c = true) : isNameChar c = true := by
  simp only [isColumnChar, Bool.or_eq_true, decide_eq_true_eq] at h
  simp only [isNameChar, Char.isAlphanum, Char.isAlpha, Char.isLower, Char.isDigit, Bool.or_eq_true,
    Bool.and_eq_true, decide_eq_true_eq]
  rcases h with (h | h) | h
  · exact Or.inl (Or.inl (Or.inr h))
  · exact Or.inl (Or.inr h)
  · exact Or.inr h

theorem nameChars_column {c : Criterion} (h : c.isValid = true) : NameChars c.column := by
  simp only [isValid, Bool.and_eq_true, List.all_eq_true] at h
  exact fun d hd => isNameChar_of_isColumnChar (h.2 d hd)

theorem placeholders_predicate (c : Criterion) (tableAlias : String) :
    (c.predicate tableAlias).placeholders = [c.placeholder tableAlias] := by
  unfold predicate
  split <;> simp

theorem tables_predicate (c : Criterion) (tableAlias : String) :
    (c.predicate tableAlias).tables = [tableAlias] := by
  unfold predicate
  split <;> simp

theorem isName_placeholder {c : Criterion} (h : c.isValid = true) {tableAlias : String} (ha : IsName tableAlias) :
    IsName (c.placeholder tableAlias) := by
  refine (ha.append ?_).append (nameChars_column h)
  split <;> decide

theorem legible_predicate {c : Criterion} (h : c.isValid = true) {tableAlias : String} (ha : IsName tableAlias) :
    (c.predicate tableAlias).Legible := by
  have hp := isName_placeholder h ha
  have hc : (Expr.column tableAlias c.column).Legible := ⟨NameChars.noColon ha.2, (nameChars_column h).noColon⟩
  unfold predicate
  split
  · exact ⟨hc, hp⟩
  · exact ⟨hc, hp⟩

end Criterion

namespace Restriction

def Balanced (r : Restriction) : Prop :=
  ∀ name, name ∈ r.predicates.values.flatMap Expr.placeholders ↔ name ∈ r.bindings.keys

/-- The predicates read back and read from the table alone; names start with the table's. -/
structure Fit (tableAlias : String) (r : Restriction) : Prop where
  legible : ∀ p ∈ r.predicates.values, p.Legible
  reads : ∀ p ∈ r.predicates.values, p.tables ⊆ [tableAlias]
  named : ∀ name ∈ r.bindings.keys, ∃ rest, name = tableAlias ++ "_" ++ rest

variable {r : Restriction} {tableAlias key placeholder : String} {predicate : Expr} {values : List String}

theorem fit_none : none.Fit tableAlias := ⟨by simp [none, KeyMap.values, KeyMap.empty],
  by simp [none, KeyMap.values, KeyMap.empty], by simp [none]⟩

theorem Fit.add (h : r.Fit tableAlias) (hl : predicate.Legible) (ht : predicate.tables ⊆ [tableAlias])
    (hn : ∃ rest, placeholder = tableAlias ++ "_" ++ rest) :
    (r.add key predicate placeholder values).Fit tableAlias where
  legible p hp := by
    rcases KeyMap.mem_values_insert hp with hp | rfl
    · exact h.legible p hp
    · exact hl
  reads p hp := by
    rcases KeyMap.mem_values_insert hp with hp | rfl
    · exact h.reads p hp
    · exact ht
  named name hm := by
    rcases KeyMap.mem_keys_insert.1 hm with hm | rfl
    · exact h.named name hm
    · exact hn

theorem Balanced.add (h : r.Balanced) (hk : key ∉ r.predicates.keys)
    (hp : predicate.placeholders = [placeholder]) : (r.add key predicate placeholder values).Balanced := by
  intro name
  rw [Restriction.add, KeyMap.values_insert_of_notMem hk, KeyMap.mem_keys_insert, List.flatMap_append,
    List.mem_append, h name, List.flatMap_singleton, hp, List.mem_singleton]

section Criteria

variable {userColumn : String} {criteria : KeyMap (List String)} {unitCounts : Bool} {unit : OrgUnit}

theorem addCriterion_eq_ok {r' : Restriction} {criterion : String × List String}
    (h : r.addCriterion tableAlias criterion = .ok r') :
    criterion.2 = [] ∧ r' = r ∨
      criterion.2 ≠ [] ∧ (Criterion.ofKey criterion.1).isValid = true ∧
        r' = r.add criterion.1 ((Criterion.ofKey criterion.1).predicate tableAlias)
          ((Criterion.ofKey criterion.1).placeholder tableAlias) criterion.2 := by
  simp only [addCriterion] at h
  split at h
  · rename_i he
    cases h
    exact Or.inl ⟨List.isEmpty_iff.1 he, rfl⟩
  · rename_i he
    split at h
    · rename_i hv
      cases h
      exact Or.inr ⟨fun hn => he (List.isEmpty_iff.2 hn), hv, rfl⟩
    · cases h

theorem placeholder_eq (c : Criterion) (tableAlias : String) :
    ∃ rest, c.placeholder tableAlias = tableAlias ++ "_" ++ rest := by
  cases he : c.excluded with
  | true => exact ⟨"excl_" ++ c.column, by simp [Criterion.placeholder, he, String.append_assoc]; rfl⟩
  | false => exact ⟨c.column, by simp [Criterion.placeholder, he]⟩

theorem isName_unitPlaceholder (ha : IsName tableAlias) : IsName (tableAlias ++ "_ou_user_ids") :=
  ha.append (by decide)

theorem Fit.addUnit (h : r.Fit tableAlias) (ha : IsName tableAlias) (hu : NoColon userColumn) :
    (r.addUnit tableAlias userColumn unit).Fit tableAlias := by
  unfold Restriction.addUnit
  extract_lets placeholder
  split
  · exact h
  · refine h.add ⟨⟨NameChars.noColon ha.2, hu⟩, isName_unitPlaceholder ha⟩ (by simp) ⟨"ou_user_ids", ?_⟩
    simp only [placeholder, String.append_assoc]
    rfl

theorem fit_ofCriteria (ha : IsName tableAlias) (hu : NoColon userColumn)
    (h : ofCriteria userColumn criteria unitCounts tableAlias unit = .ok r) : r.Fit tableAlias := by
  obtain ⟨s, hs, rfl⟩ := Except.map_eq_ok.1 h
  have fit : s.Fit tableAlias := by
    refine foldlM_induction (P := fun _ r => r.Fit tableAlias) (n := 0) hs fit_none
      fun i criterion r r' _ hr hfit => ?_
    rcases addCriterion_eq_ok hr with ⟨-, rfl⟩ | ⟨-, hv, rfl⟩
    · exact hfit
    · exact hfit.add (Criterion.legible_predicate hv ha) (by rw [Criterion.tables_predicate]; simp)
        (placeholder_eq _ _)
  split
  · exact fit.addUnit ha hu
  · exact fit

/-- The criteria leave the unit's name free, where the unit has a predicate. -/
def UnitNameFree (criteria : KeyMap (List String)) (unitCounts : Bool) (unit : OrgUnit) : Prop :=
  unitCounts = true → unit.userIds ≠ [] → ∀ values, ("org_unit", values) ∈ criteria.entries → values = []

theorem notMem_take_of_nodup {entries : List (String × List String)} (h : (entries.map Prod.fst).Nodup)
    {i : Nat} {pair : String × List String} (hi : entries[i]? = some pair) :
    pair.1 ∉ (entries.take i).map Prod.fst := by
  obtain ⟨hlt, rfl⟩ := List.getElem?_eq_some_iff.1 hi
  have hsplit : entries = entries.take i ++ entries[i] :: entries.drop (i + 1) := by simp
  rw [hsplit, List.map_append, List.nodup_append'] at h
  exact fun hm => h.2.2 hm List.mem_cons_self

theorem balanced_ofCriteria (hfree : UnitNameFree criteria unitCounts unit)
    (h : ofCriteria userColumn criteria unitCounts tableAlias unit = .ok r) : r.Balanced := by
  obtain ⟨s, hs, rfl⟩ := Except.map_eq_ok.1 h
  -- Keys do not repeat, so that each predicate comes to the end; the keys taken so far are those with values.
  have hall : s.Balanced ∧ ∀ key ∈ s.predicates.keys,
      ∃ values, values ≠ [] ∧ (key, values) ∈ criteria.entries.take (0 + criteria.entries.length) := by
    refine foldlM_induction (P := fun n r => r.Balanced ∧ ∀ key ∈ r.predicates.keys,
      ∃ values, values ≠ [] ∧ (key, values) ∈ criteria.entries.take n) hs ?_ ?_
    · exact ⟨by simp [Balanced, none, KeyMap.values, KeyMap.empty, KeyMap.keys], by simp [none]⟩
    · rintro i criterion r r' hi hr ⟨hbal, hkeys⟩
      rw [Nat.zero_add] at hkeys ⊢
      have hmono : ∀ pair ∈ criteria.entries.take i, pair ∈ criteria.entries.take (i + 1) :=
        fun pair hp => (List.take_subset_take_left _ (Nat.le_succ i)) hp
      rcases addCriterion_eq_ok hr with ⟨-, rfl⟩ | ⟨hne, hv, rfl⟩
      · exact ⟨hbal, fun key hk => (hkeys key hk).imp fun values hv => ⟨hv.1, hmono _ hv.2⟩⟩
      · have hnew : criterion.1 ∉ r.predicates.keys := by
          intro hk
          obtain ⟨values, -, hm⟩ := hkeys _ hk
          exact notMem_take_of_nodup criteria.nodup hi (List.mem_map.2 ⟨_, hm, rfl⟩)
        refine ⟨hbal.add hnew (Criterion.placeholders_predicate _ _), fun key hk => ?_⟩
        rcases KeyMap.mem_keys_insert.1 hk with hk | rfl
        · exact (hkeys key hk).imp fun values hv => ⟨hv.1, hmono _ hv.2⟩
        · refine ⟨criterion.2, hne, ?_⟩
          rw [List.take_add_one, hi]
          simp
  obtain ⟨hbal, hkeys⟩ := hall
  split
  · rename_i hcounts
    unfold addUnit
    extract_lets placeholder
    split
    · exact hbal
    · rename_i hne
      refine hbal.add (fun hk => ?_) (by simp)
      obtain ⟨values, hv, hm⟩ := hkeys _ hk
      exact hv (hfree hcounts (fun hn => hne (by simp [hn])) values (List.mem_of_mem_take hm))
  · exact hbal

end Criteria

end Restriction
end LeadTime
