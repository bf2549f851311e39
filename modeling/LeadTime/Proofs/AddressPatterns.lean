import LeadTime.Proofs.Bindings
import LeadTime.Proofs.Sql.Like
import LeadTime.Proofs.StageEvent.Carried
import Mathlib

/-! The address of a run's repository. A stage asks that it start with one text and contain another by patterns that the
texts are put into as they are, so that it finds these addresses alone only where neither text has wildcards or
backslashes. -/
namespace LeadTime

open Sql

namespace TextPattern

/-- The text starts with what it should, and contains what it should. -/
structure Finds (p : TextPattern) (text : String) : Prop where
  begins : ∀ s ∈ p.begins, s.toList <+: text.toList
  contains : ∀ s ∈ p.contains, s.toList <:+: text.toList

/-- The texts have neither wildcards nor backslashes. -/
structure IsPlain (p : TextPattern) : Prop where
  begins : ∀ s ∈ p.begins, Plain s.toList
  contains : ∀ s ∈ p.contains, Plain s.toList

end TextPattern

namespace RunFilter

def addressTerm (placeholder : String) : Expr :=
  .binary .like (.binary .memberText (.column "jr" "metadata") (.quoted "repo_url")) (.placeholder placeholder)

end RunFilter

/-- The address satisfies the terms on it, each under the pattern that is bound to its placeholder. -/
def Terms.Admits (t : Terms) (address : String) : Prop :=
  ∀ placeholder, RunFilter.addressTerm placeholder ∈ t.conditions →
    ∃ pattern, (KeyMap.ofList t.bindings).get? placeholder = some (.text pattern) ∧ Like pattern address

namespace RunFilter

variable {stage : Nat} {placeholder : String}

theorem addressTerm_injective : Function.Injective addressTerm := by
  intro a b h
  simpa [addressTerm] using h

theorem addressTerm_notMem_inList (column placeholder' : String) (values : List String) :
    addressTerm placeholder ∉ (inList column placeholder' values).conditions := by
  unfold inList
  split <;> simp [addressTerm, Terms.none]

theorem addressTerm_notMem_notInList (column placeholder' : String) (values : List String) :
    addressTerm placeholder ∉ (notInList column placeholder' values).conditions := by
  unfold notInList
  split <;> simp [addressTerm, Terms.none]

theorem addressTerm_notMem_anyOf (ts : List Terms) : addressTerm placeholder ∉ (Terms.anyOf ts).conditions := by
  unfold Terms.anyOf
  split <;> simp [addressTerm, Terms.none]

theorem addressTerm_notMem_flagTerms (flag : Option PlatformFlag) :
    addressTerm placeholder ∉ (flagTerms stage flag).conditions := by
  cases flag <;> simp [flagTerms, addressTerm, Terms.none]

theorem addressTerm_mem_repositoryTerms {pattern : Option TextPattern} :
    addressTerm placeholder ∈ (repositoryTerms stage pattern).conditions ↔
      (∃ s, pattern.bind (·.begins) = some s ∧ placeholder = StageName.addressBegins.text stage) ∨
        ∃ s, pattern.bind (·.contains) = some s ∧ placeholder = StageName.addressContains.text stage := by
  have hlike (name text : String) : (addressLike name text).conditions = [addressTerm name] := rfl
  cases pattern with
  | none => simp [repositoryTerms, Terms.none]
  | some p =>
    obtain ⟨begins, contains⟩ := p
    cases begins <;> cases contains <;>
      simp [repositoryTerms, Terms.none, hlike, addressTerm_injective.eq_iff, StageName.text]

theorem addressTerm_mem_terms {f : RunFilter} {flag : Option PlatformFlag} :
    addressTerm placeholder ∈ (f.terms stage flag).conditions ↔
      addressTerm placeholder ∈ (repositoryTerms stage f.repository).conditions := by
  simp only [terms, Terms.all, Terms.conditions_append, List.mem_append, containment, branchTerms,
    addressTerm_notMem_inList, addressTerm_notMem_notInList, addressTerm_notMem_anyOf, addressTerm_notMem_flagTerms,
    false_or, or_false, Terms.none, List.not_mem_nil]

theorem get?_terms {f : RunFilter} {flag : Option PlatformFlag} {n : StageName} {value : ParamValue}
    (h : (n, value) ∈ f.carried flag) :
    (KeyMap.ofList (f.terms stage flag).bindings).get? (n.text stage) = some value := by
  rw [bindings_terms]
  exact StageName.get?_insertAll_bindings (f.within_carried flag).nodup h .empty stage

theorem admits_iff {f : RunFilter} {flag : Option PlatformFlag} {address : String} :
    (f.terms stage flag).Admits address ↔
      (∀ s ∈ f.repository.bind (·.begins), Like (beginsPattern s) address) ∧
        ∀ s ∈ f.repository.bind (·.contains), Like (containsPattern s) address := by
  have hbegins (s : String) (hs : f.repository.bind (·.begins) = some s) :
      (.addressBegins, .text (beginsPattern s)) ∈ f.carried flag := by simp [carried, carriedAddress, hs]
  have hcontains (s : String) (hs : f.repository.bind (·.contains) = some s) :
      (.addressContains, .text (containsPattern s)) ∈ f.carried flag := by simp [carried, carriedAddress, hs]
  simp only [Terms.Admits, addressTerm_mem_terms, addressTerm_mem_repositoryTerms]
  constructor
  · refine fun h => ⟨fun s hs => ?_, fun s hs => ?_⟩
    · obtain ⟨pattern, hbound, hlike⟩ := h _ (Or.inl ⟨s, hs, rfl⟩)
      rw [get?_terms (hbegins s hs)] at hbound
      cases hbound
      exact hlike
    · obtain ⟨pattern, hbound, hlike⟩ := h _ (Or.inr ⟨s, hs, rfl⟩)
      rw [get?_terms (hcontains s hs)] at hbound
      cases hbound
      exact hlike
  · rintro ⟨hb, hc⟩ placeholder (⟨s, hs, rfl⟩ | ⟨s, hs, rfl⟩)
    · exact ⟨_, get?_terms (hbegins s hs), hb s hs⟩
    · exact ⟨_, get?_terms (hcontains s hs), hc s hs⟩

theorem forall_mem_iff_getD {P : List Char → Prop} (empty : P []) (text : Option String) :
    (∀ s ∈ text, P s.toList) ↔ P ((text.map String.toList).getD []) := by cases text <;> simp [empty]

/-- Whatever else a filter asks for, the addresses that it admits are those that start with the one text and contain the
other exactly where the texts have neither wildcards nor backslashes. -/
theorem admits_iff_finds_iff (f : RunFilter) (pattern : TextPattern) (stage : Nat) (flag : Option PlatformFlag) :
    (∀ address, ({ f with repository := some pattern }.terms stage flag).Admits address ↔ pattern.Finds address) ↔
      pattern.IsPlain := by
  let begins := (pattern.begins.map String.toList).getD []
  let contains := (pattern.contains.map String.toList).getD []
  have hadmits (address : String) : ({ f with repository := some pattern }.terms stage flag).Admits address ↔
      LikeChars (begins ++ ['%']) address.toList ∧ LikeChars ('%' :: (contains ++ ['%'])) address.toList := by
    have hbegins := forall_mem_iff_getD (P := fun s => LikeChars (s ++ ['%']) address.toList)
      (LikeChars.run_end _) pattern.begins
    have hcontains := forall_mem_iff_getD (P := fun s => LikeChars ('%' :: (s ++ ['%'])) address.toList)
      (LikeChars.run_iff.2 ⟨_, List.suffix_refl _, LikeChars.run_end _⟩) pattern.contains
    rw [admits_iff, ← hbegins, ← hcontains]
    simp [Like, beginsPattern, containsPattern]
  have hfinds (address : String) : pattern.Finds address ↔
      begins <+: address.toList ∧ contains <:+: address.toList := by
    have hbegins := forall_mem_iff_getD (P := (· <+: address.toList)) List.nil_prefix pattern.begins
    have hcontains := forall_mem_iff_getD (P := (· <:+: address.toList)) List.nil_infix pattern.contains
    rw [← hbegins, ← hcontains]
    exact ⟨fun h => ⟨h.1, h.2⟩, fun h => ⟨h.1, h.2⟩⟩
  have hplain : pattern.IsPlain ↔ Plain begins ∧ Plain contains := by
    have hnil : Plain [] := fun _ hc => absurd hc List.not_mem_nil
    rw [← forall_mem_iff_getD hnil, ← forall_mem_iff_getD hnil]
    exact ⟨fun h => ⟨h.1, h.2⟩, fun h => ⟨h.1, h.2⟩⟩
  have hsurjective : Function.Surjective String.toList := fun t => ⟨String.ofList t, by simp⟩
  simp only [hadmits, hfinds]
  rw [hplain, ← patternsFind_iff, PatternsFind, hsurjective.forall]

/-- An underscore stands for a hyphen too: the address is admitted, but does not start with what it should. -/
theorem admits_hyphen :
    ({ unrestricted with repository := some ⟨some "my_repo", none⟩ }.terms 0 none).Admits "my-repo" ∧
      ¬ (⟨some "my_repo", none⟩ : TextPattern).Finds "my-repo" := by
  refine ⟨admits_iff.2 ⟨fun s hs => ?_, fun s hs => by cases hs⟩, fun h => ?_⟩
  · cases hs
    have hrest : LikeChars ['r', 'e', 'p', 'o', '%'] ['r', 'e', 'p', 'o'] :=
      LikeChars.begins_iff (p := ['r', 'e', 'p', 'o']) (by simp [Plain, isSpecial]) |>.2 (List.prefix_refl _)
    exact .literal rfl (.literal rfl (.one '-' hrest))
  · have hprefix := h.begins "my_repo" rfl
    revert hprefix
    decide

end RunFilter

end LeadTime
