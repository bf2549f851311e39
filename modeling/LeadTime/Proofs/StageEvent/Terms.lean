import LeadTime.Proofs.Terms
import Mathlib

/-! The terms of a stage fit: those of its filter of job runs, of its jobs and run parameters, and of its branches. -/
namespace LeadTime

open Sql

namespace RunFilter

variable {stage : Nat} {aliases : List String}

theorem fit_inList {column placeholder : String} (hc : NoColon column)
    (hp : Placeholder.OfStage placeholder) (values : List String) :
    (inList column placeholder values).Fit ["jr"] := by
  unfold inList
  split
  · exact .none
  · exact .single (by simp) (by simp +decide [hc, hp.isName]) (by simp) hp

theorem fit_notInList {column placeholder : String} (hc : NoColon column)
    (hp : Placeholder.OfStage placeholder) (values : List String) :
    (notInList column placeholder values).Fit ["jr"] := by
  unfold notInList
  split
  · exact .none
  · exact .single (by simp) (by simp +decide [hc, hp.isName]) (by simp) hp

theorem fit_containment (index : Nat) {field : String} (hf : NoColon field) (values : List String) :
    (containment stage index field values).Fit ["jr"] := by
  refine .anyOf fun t ht => ?_
  obtain ⟨⟨value, i⟩, -, rfl⟩ := List.mem_map.1 ht
  have hp := Placeholder.ofStage_metadataValue stage index i
  exact .single (by simp) (by simp +decide [hf, hp.isName]) (by simp) hp

theorem fit_branchTerms (branches : List String) : (branchTerms stage branches).Fit ["jr"] := by
  refine .anyOf fun t ht => ?_
  obtain ⟨⟨branch, i⟩, -, rfl⟩ := List.mem_map.1 ht
  have hp := Placeholder.ofStage_metadataValue stage branchField i
  have hp' := Placeholder.ofStage_metadataOther stage branchField i
  exact ⟨by simp [Terms.placeholders, Terms.names], by simp +decide [hp.isName, hp'.isName], by simp,
    by simp [Terms.names, hp, hp']⟩

theorem fit_addressLike {placeholder : String} (hp : Placeholder.OfStage placeholder) (pattern : String) :
    (addressLike placeholder pattern).Fit ["jr"] :=
  .single (by simp) (by simp +decide [hp.isName]) (by simp) hp

theorem fit_repositoryTerms (pattern : Option TextPattern) : (repositoryTerms stage pattern).Fit ["jr"] := by
  cases pattern with
  | none => exact .none
  | some p =>
    refine .append ?_ ?_
    · cases p.begins with
      | none => exact .none
      | some s => exact fit_addressLike (Placeholder.ofStage_metadataPattern stage (by decide) (by decide)) _
    · cases p.contains with
      | none => exact .none
      | some s => exact fit_addressLike (Placeholder.ofStage_metadataPattern stage (by decide) (by decide)) _

theorem fit_flagTerms (flag : Option PlatformFlag) : (flagTerms stage flag).Fit ["jr"] := by
  cases flag with
  | none => exact .none
  | some flag =>
    have hp : Placeholder.OfStage (Placeholder.field stage ("is_" ++ flag.column)) :=
      Placeholder.ofStage_field stage (by cases flag <;> decide)
    have hc : NoColon flag.column := by cases flag <;> decide
    exact .single (by simp) (by simp +decide [hc, hp.isName]) (by simp) hp

theorem fit_terms (f : RunFilter) (flag : Option PlatformFlag) : (f.terms stage flag).Fit ["jr"] := by
  have field {s : String} (hs : IsName s) := Placeholder.ofStage_field stage hs
  have excluded {s : String} (hs : NameChars s) := Placeholder.ofStage_excluded stage hs
  refine .all fun t ht => ?_
  fin_cases ht
  · exact fit_inList (by decide) (field (by decide)) _
  · exact fit_notInList (by decide) (excluded (by decide)) _
  · exact fit_inList (by decide) (field (by decide)) _
  · exact fit_notInList (by decide) (excluded (by decide)) _
  · exact fit_containment 0 (by decide) _
  · exact fit_containment 1 (by decide) _
  · exact fit_containment 2 (by decide) _
  · exact fit_branchTerms _
  · exact fit_repositoryTerms _
  · exact fit_flagTerms flag

end RunFilter

def RunMatch.aliases (r : RunMatch) : List String := if r.params.isEmpty then ["jr"] else ["jr", "jrp"]

theorem RunMatch.jr_subset_aliases (r : RunMatch) : ["jr"] ⊆ r.aliases := by
  unfold aliases
  split <;> simp

theorem RunMatch.fit_terms (r : RunMatch) (stage first : Nat) : (r.terms stage first).Fit r.aliases := by
  refine .append ?_ ?_
  · split
    · exact .none
    · have hp := Placeholder.ofStage_value stage
      refine .single (by simp) (by simp +decide [hp.isName]) (by simpa using r.jr_subset_aliases) hp
  · refine .anyOf fun t ht => ?_
    obtain ⟨⟨pair, i⟩, hm, rfl⟩ := List.mem_map.1 ht
    have hn := Placeholder.ofStage_name stage (first + i)
    have hv := Placeholder.ofStage_indexedValue stage (first + i)
    have hne : r.params.isEmpty = false := by
      cases hps : r.params with
      | nil => simp [hps] at hm
      | cons => rfl
    exact ⟨by simp [Terms.placeholders, Terms.names], by simp +decide [hn.isName, hv.isName],
      by simp [aliases, hne], by simp [Terms.names, hn, hv]⟩

structure RestrictsPullRequest (condition : String → Expr) : Prop where
  placeholders : ∀ name, (condition name).placeholders = [name]
  legible : ∀ name, IsName name → (condition name).Legible
  tables : ∀ name, (condition name).tables ⊆ ["pr"]
  compares : ∀ name, ∃ operator column right, condition name = .binary operator (.column "pr" column) right

theorem restricts_among {column : String} (h : NoColon column) :
    RestrictsPullRequest (Expr.column "pr" column).among :=
  ⟨by simp, by simp +decide [h], by simp, fun _ => ⟨_, _, _, rfl⟩⟩

theorem restricts_matches {column : String} (h : NoColon column) :
    RestrictsPullRequest fun name => .binary .matchesPattern (.column "pr" column) (.placeholder name) :=
  ⟨by simp, by simp +decide [h], by simp, fun _ => ⟨_, _, _, rfl⟩⟩

theorem BranchFilter.terms_eq (f : BranchFilter) (stage : Nat) :
    ∃ numbered : List (String × (String → Expr) × ParamValue),
      f.terms stage = ⟨numbered.map fun y => y.2.1 y.1, numbered.map fun y => (y.1, y.2.2)⟩ ∧
        ∀ y ∈ numbered, Placeholder.OfStage y.1 ∧ RestrictsPullRequest y.2.1 := by
  unfold terms
  extract_lets source target isIn isLike restrictions numbered
  have hisIn (column : String) (hc : NoColon column) (values : List String) :
      ∀ x ∈ isIn (.column "pr" column) values, RestrictsPullRequest x.1 := by
    intro x hx
    simp only [isIn] at hx
    split at hx
    · simp at hx
    · rw [List.mem_singleton.1 hx]
      exact restricts_among hc
  have hisLike (column : String) (hc : NoColon column) (pattern : Option String) :
      ∀ x ∈ isLike (.column "pr" column) pattern, RestrictsPullRequest x.1 := by
    intro x hx
    obtain ⟨p, -, rfl⟩ := List.mem_map.1 hx
    exact restricts_matches hc
  have hall : ∀ x ∈ restrictions, RestrictsPullRequest x.1 := by
    intro x hx
    simp only [restrictions, List.mem_append] at hx
    rcases hx with ((hx | hx) | hx) | hx
    · exact hisIn _ (by decide) _ x hx
    · exact hisIn _ (by decide) _ x hx
    · exact hisLike _ (by decide) _ x hx
    · exact hisLike _ (by decide) _ x hx
  refine ⟨numbered, rfl, fun y hy => ?_⟩
  obtain ⟨⟨x, i⟩, hx, rfl⟩ := List.mem_map.1 hy
  exact ⟨Placeholder.ofStage_indexedValue stage i, hall x (List.fst_mem_of_mem_zipIdx hx)⟩

theorem BranchFilter.fit_terms (f : BranchFilter) (stage : Nat) : (f.terms stage).Fit ["pr"] := by
  obtain ⟨numbered, h, hnumbered⟩ := f.terms_eq stage
  rw [h]
  refine ⟨fun name => ?_, ?_, ?_, ?_⟩
  · have hp : ∀ y ∈ numbered, (y.2.1 y.1).placeholders = [y.1] := fun y hy => (hnumbered y hy).2.placeholders _
    simp only [Terms.placeholders, Terms.names, List.flatMap_map, List.map_map, List.mem_flatMap, List.mem_map]
    constructor
    · rintro ⟨y, hy, hn⟩
      rw [hp y hy, List.mem_singleton] at hn
      exact ⟨y, hy, hn.symm⟩
    · rintro ⟨y, hy, rfl⟩
      exact ⟨y, hy, by rw [hp y hy]; exact List.mem_singleton_self _⟩
  · intro c hc
    obtain ⟨y, hy, rfl⟩ := List.mem_map.1 hc
    exact (hnumbered y hy).2.legible _ (hnumbered y hy).1.isName
  · intro c hc
    obtain ⟨y, hy, rfl⟩ := List.mem_map.1 hc
    exact (hnumbered y hy).2.tables _
  · intro name hn
    simp only [Terms.names, List.map_map, List.mem_map] at hn
    obtain ⟨y, hy, rfl⟩ := hn
    exact (hnumbered y hy).1

theorem BranchFilter.compares_terms (f : BranchFilter) (stage : Nat) : ∀ c ∈ (f.terms stage).conditions,
    ∃ operator column right, c = .binary operator (.column "pr" column) right := by
  obtain ⟨numbered, h, hnumbered⟩ := f.terms_eq stage
  intro c hc
  rw [h] at hc
  obtain ⟨y, hy, rfl⟩ := List.mem_map.1 hc
  exact (hnumbered y hy).2.compares y.1

end LeadTime
