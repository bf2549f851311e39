import LeadTime.Proofs.Scope
import LeadTime.Proofs.Sql.Conjuncts
import LeadTime.Proofs.StageEvent.Terms
import Mathlib

/-! Terms that the compiler writes itself. Filters of runs, restrictions of branches, the lines of joins, the clauses on
whole rows and the predicates of criteria are all sealed, whatever they restrict and however many alternatives they
list. -/
namespace LeadTime

open Sql

/-- The terms that AND joins in a select: where its tables join, and in its WHERE. -/
def Sql.TableSelect.terms (s : TableSelect) : List Expr := s.joins.flatMap (·.on) ++ s.conditions

def Sql.Source.terms : Source → List Expr
  | .table _ => []
  | .select s => s.terms
  | .paired s => s.left.terms ++ s.right.terms ++ s.on

/-- The terms of a line: in the select that it joins, and those that it joins on. A line that is handed in as a text
counts as one. -/
def Sql.JoinLine.terms : JoinLine → List Expr
  | .join _ source _ on => source.terms ++ on
  | .verbatim text => [.verbatim text]

def Sql.JoinLine.Sealed (line : JoinLine) : Prop := ∀ e ∈ line.terms, e.Sealed

namespace Terms

def Sealed (t : Terms) : Prop := ∀ e ∈ t.conditions, e.Sealed

variable {a b : Terms} {ts : List Terms}

theorem Sealed.none : none.Sealed := by simp [Sealed]

theorem Sealed.append (ha : a.Sealed) (hb : b.Sealed) : (a ++ b).Sealed := by
  intro e he
  exact (List.mem_append.1 he).elim (ha e) (hb e)

theorem Sealed.all (h : ∀ t ∈ ts, t.Sealed) : (all ts).Sealed := by
  induction ts with
  | nil => exact .none
  | cons t rest ih =>
    rw [List.forall_mem_cons] at h
    exact h.1.append (ih h.2)

theorem Sealed.anyOf (h : ∀ t ∈ ts, t.Sealed) : (anyOf ts).Sealed := by
  unfold Terms.anyOf
  split
  · exact .none
  · exact List.forall_mem_singleton.2 (Expr.sealed_anyOf fun e he => (Sealed.all h e he).1)

theorem Sealed.single {e : Expr} {bindings : List (String × ParamValue)} (h : e.Sealed) : Sealed ⟨[e], bindings⟩ :=
  List.forall_mem_singleton.2 h

end Terms

namespace RunFilter

variable {stage : Nat}

theorem sealed_inList {column placeholder : String} (hc : Solid column) (hp : NameChars placeholder)
    (values : List String) : (inList column placeholder values).Sealed := by
  unfold inList
  split
  · exact .none
  · exact .single (by simp +decide [hc, hp])

theorem sealed_notInList {column placeholder : String} (hc : Solid column) (hp : NameChars placeholder)
    (values : List String) : (notInList column placeholder values).Sealed := by
  unfold notInList
  split
  · exact .none
  · exact .single (by simp +decide [hc, hp])

theorem sealed_containment (index : Nat) {field : String} (hf : Solid field) (values : List String) :
    (containment stage index field values).Sealed := by
  refine .anyOf fun t ht => ?_
  obtain ⟨⟨value, i⟩, -, rfl⟩ := List.mem_map.1 ht
  exact .single (by simp +decide [hf, (Placeholder.ofStage_metadataValue stage index i).isName.2])

theorem sealed_branchTerms (branches : List String) : (branchTerms stage branches).Sealed := by
  refine .anyOf fun t ht => ?_
  obtain ⟨⟨branch, i⟩, -, rfl⟩ := List.mem_map.1 ht
  have hp := (Placeholder.ofStage_metadataValue stage branchField i).isName.2
  have hp' := (Placeholder.ofStage_metadataOther stage branchField i).isName.2
  exact .single (by simp +decide [hp, hp'])

theorem sealed_addressLike {placeholder : String} (hp : NameChars placeholder) (pattern : String) :
    (addressLike placeholder pattern).Sealed := .single (by simp +decide [hp])

theorem sealed_repositoryTerms (pattern : Option TextPattern) : (repositoryTerms stage pattern).Sealed := by
  have hname {operator : String} (h : NameChars operator) :
      NameChars (Placeholder.metadataPattern stage "repo_url" operator) :=
    (Placeholder.ofStage_metadataPattern stage (by decide) h).isName.2
  cases pattern with
  | none => exact .none
  | some p =>
    refine .append ?_ ?_
    · cases p.begins with
      | none => exact .none
      | some s => exact sealed_addressLike (hname (by decide)) _
    · cases p.contains with
      | none => exact .none
      | some s => exact sealed_addressLike (hname (by decide)) _

theorem sealed_flagTerms (flag : Option PlatformFlag) : (flagTerms stage flag).Sealed := by
  cases flag with
  | none => exact .none
  | some flag =>
    have hp : NameChars (Placeholder.field stage ("is_" ++ flag.column)) :=
      (Placeholder.ofStage_field stage (by cases flag <;> decide)).isName.2
    have hc : Solid flag.column := by cases flag <;> decide
    exact .single (by simp +decide [hc, hp])

theorem sealed_terms (f : RunFilter) (stage : Nat) (flag : Option PlatformFlag) : (f.terms stage flag).Sealed := by
  have field {s : String} (hs : IsName s) := (Placeholder.ofStage_field stage hs).isName.2
  have excluded {s : String} (hs : NameChars s) := (Placeholder.ofStage_excluded stage hs).isName.2
  refine .all fun t ht => ?_
  fin_cases ht
  · exact sealed_inList (by decide) (field (by decide)) _
  · exact sealed_notInList (by decide) (excluded (by decide)) _
  · exact sealed_inList (by decide) (field (by decide)) _
  · exact sealed_notInList (by decide) (excluded (by decide)) _
  · exact sealed_containment 0 (by decide) _
  · exact sealed_containment 1 (by decide) _
  · exact sealed_containment 2 (by decide) _
  · exact sealed_branchTerms _
  · exact sealed_repositoryTerms _
  · exact sealed_flagTerms flag

end RunFilter

theorem RunMatch.sealed_terms (r : RunMatch) (stage first : Nat) : (r.terms stage first).Sealed := by
  refine .append ?_ ?_
  · split
    · exact .none
    · exact .single (by simp +decide [(Placeholder.ofStage_value stage).isName.2])
  · refine .anyOf fun t ht => ?_
    obtain ⟨⟨pair, i⟩, -, rfl⟩ := List.mem_map.1 ht
    have hn := (Placeholder.ofStage_name stage (first + i)).isName.2
    have hv := (Placeholder.ofStage_indexedValue stage (first + i)).isName.2
    exact .single (by simp +decide [hn, hv])

theorem BranchFilter.sealed_terms (f : BranchFilter) (stage : Nat) : (f.terms stage).Sealed := by
  unfold terms
  extract_lets source target isIn isLike restrictions numbered
  have hisIn (column : String) (hc : Solid column) (values : List String) :
      ∀ x ∈ isIn (.column "pr" column) values, ∀ name, NameChars name → (x.1 name).Sealed := by
    intro x hx name hn
    simp only [isIn] at hx
    split at hx
    · simp at hx
    · rw [List.mem_singleton.1 hx]
      simp +decide [hc, hn]
  have hisLike (column : String) (hc : Solid column) (pattern : Option String) :
      ∀ x ∈ isLike (.column "pr" column) pattern, ∀ name, NameChars name → (x.1 name).Sealed := by
    intro x hx name hn
    obtain ⟨p, -, rfl⟩ := List.mem_map.1 hx
    simp +decide [hc, hn]
  intro e he
  obtain ⟨⟨name, x⟩, hm, rfl⟩ := List.mem_map.1 he
  obtain ⟨⟨y, i⟩, hy, heq⟩ := List.mem_map.1 hm
  cases heq
  have hname := (Placeholder.ofStage_indexedValue stage i).isName.2
  have hx : x ∈ restrictions := List.fst_mem_of_mem_zipIdx hy
  simp only [restrictions, List.mem_append] at hx
  rcases hx with ((hx | hx) | hx) | hx
  · exact hisIn _ (by decide) _ x hx _ hname
  · exact hisIn _ (by decide) _ x hx _ hname
  · exact hisLike _ (by decide) _ x hx _ hname
  · exact hisLike _ (by decide) _ x hx _ hname

theorem Join.word_tableAlias (j : Join) : Word j.tableAlias := by
  cases j with
  | label stage | jobRun stage | genericEvent stage => exact Word.append (by decide) (nameChars_repr stage).solid
  | _ => decide

section Lines

attribute [local simp] JoinLine.leftTable JoinLine.Sealed JoinLine.terms Source.terms TableSelect.terms

theorem IssueSystem.solid_keyColumn (system : IssueSystem) : Solid system.keyColumn := by cases system <;> decide

theorem IssueSystem.solid_key (system : IssueSystem) : Solid system.mapping.key := by cases system <;> decide

theorem IssueSystem.solid_component (system : IssueSystem) : Solid system.component := by cases system <;> decide

namespace JoinContext

variable {context : JoinContext}

theorem sealed_eventLink {tableAlias : String} (h : Word tableAlias) : ∀ e ∈ context.eventLink tableAlias, e.Sealed := by
  simp +decide [eventLink, h, IssueSystem.solid_keyColumn, IssueSystem.solid_component]

theorem sealed_lines (j : Join) : ∀ line ∈ context.lines j, line.Sealed := by
  have hkey := context.anchor.issueSystem.solid_keyColumn
  have hmapped := context.anchor.issueSystem.solid_key
  cases j with
  | commit => cases h : context.anchor.isIssue <;> simp +decide [lines, commitLines, h, hkey, hmapped]
  | pullRequest => cases h : context.prIssueCorrelation <;> simp +decide [lines, pullRequestLines, h, hkey, hmapped]
  | issue =>
    cases h : context.prIssueCorrelation <;> cases hf : context.freshness <;>
      simp +decide [lines, issueLines, issueSelect, latestIngestion, h, hf, hkey, hmapped]
  | startEvent => simpa [lines] using sealed_eventLink (by decide)
  | statusHistory =>
    simp only [lines, statusLines]
    split <;> simp +decide
  | _ => simp +decide [lines, latestIngestion]

end JoinContext

end Lines

namespace Scope

variable {s : Scope}

/-- A predicate that rows without the entity pass stands in parentheses, in which it need only be balanced. -/
theorem sealed_orMissing {j : Join} {p : Expr} (h : Balanced p.text.toList) :
    Sql.Sealed (Expr.anyOf [.isNull (.column j.tableAlias "id"), p]).text.toList := by
  have hmissing : (Expr.isNull (.column j.tableAlias "id")).Worded := ⟨j.word_tableAlias, by decide⟩
  refine Expr.sealed_group ?_
  rw [show Expr.chain .or [.isNull (.column j.tableAlias "id"), p] =
    .binary .or (.isNull (.column j.tableAlias "id")) p from rfl, Expr.text_binary, String.toList_append,
    String.toList_append]
  exact (hmissing.balanced.append (Operator.balanced_text .or)).append h

theorem sealed_optionalCondition {placeholder : String} (h : NameChars placeholder) (j : Join) :
    (optionalCondition j placeholder).Sealed := by simp +decide [optionalCondition, h, j.word_tableAlias]

theorem sealed_anchorPart : ∀ e ∈ s.anchorPart.conditions, e.Sealed := by
  have ha : Word s.anchor.tableAlias := by rw [← Anchor.tableAlias_join]; exact Join.word_tableAlias _
  have hp : NameChars s.anchorPlaceholder := by
    unfold anchorPlaceholder
    split <;> decide
  simp +decide [anchorPart, ha, hp]

theorem sealed_endTimeClauses : ∀ c ∈ s.endTimeClauses, ∀ e ∈ c.conditions, e.Sealed := by
  unfold endTimeClauses
  split
  · rename_i stage range _ _
    have ha := (Join.jobRun stage).word_tableAlias
    have hstart := (Placeholder.ofStage_endTimeStart stage).isName.2
    have hstop := (Placeholder.ofStage_endTimeStop stage).isName.2
    obtain ⟨start, stop⟩ := range
    cases start <;> cases stop <;> simp +decide [whenSome, nothing, endBound, ha, hstart, hstop]
  · exact fun _ hc => absurd hc List.not_mem_nil

theorem sealed_ownClauses {c stack : ScopeClause} (hs : s.stackClause = .ok stack) (h : c ∈ s.ownClauses stack) :
    ∀ e ∈ c.conditions, e.Sealed := by
  simp only [ownClauses, List.mem_append, List.mem_cons, List.not_mem_nil, or_false] at h
  rcases h with (rfl | rfl | rfl | rfl) | h
  · unfold activePart
    cases s.issues.bind (·.isActive) <;> simp +decide [whenSome, nothing, activeClause]
  · rcases s.sprintPart_cases with h | ⟨-, states, h⟩ <;> simp [h, nothing, sprintsOf]
  · rcases stackClause_eq_ok hs with rfl | ⟨kind, rfl⟩
    · simp [nothing]
    · have hc : Solid (kind.column s.anchor.issueSystem) := by cases kind <;> cases s.anchor.issueSystem <;> decide
      cases h : kind.isArray <;> simp +decide [stackPart, h, hc]
  · unfold trendClause
    split
    · simp [nothing]
    · cases h : s.anchor.isIssue <;> simp +decide [Anchor.trend, h]
  · exact sealed_endTimeClauses c h

section Sprints

attribute [local simp] JoinLine.Sealed JoinLine.terms Source.terms TableSelect.terms Join.tableAlias

theorem sealed_sprintLine (s : Scope) : s.sprintLine.Sealed := by
  unfold sprintLine sprintSelect
  extract_lets tableAlias link byState
  cases hs : s.anchor.issueSystem <;> cases h : s.filters.issueIds.isEmpty <;>
    simp +decide [link, byState, tableAlias, hs, h]

end Sprints

end Scope

namespace Criterion

theorem sealed_predicate {c : Criterion} (h : c.isValid = true) {tableAlias : String} (ha : Word tableAlias)
    (hn : IsName tableAlias) : (c.predicate tableAlias).Sealed := by
  have hc := (nameChars_column h).solid
  have hp := (isName_placeholder h hn).2
  unfold predicate
  split <;> simp +decide [ha, hc, hp]

end Criterion

namespace Restriction

def Sealed (r : Restriction) : Prop := ∀ p ∈ r.predicates.values, p.Sealed

theorem Sealed.add {r : Restriction} {key placeholder : String} {predicate : Expr} {values : List String} (h : r.Sealed)
    (hp : predicate.Sealed) : (r.add key predicate placeholder values).Sealed := by
  intro p hm
  rcases KeyMap.mem_values_insert hm with hm | rfl
  · exact h p hm
  · exact hp

theorem sealed_ofCriteria {userColumn tableAlias : String} (hu : Solid userColumn) (ha : Word tableAlias)
    (hn : IsName tableAlias) {criteria : KeyMap (List String)} {unitCounts : Bool} {unit : OrgUnit} {r : Restriction}
    (h : ofCriteria userColumn criteria unitCounts tableAlias unit = .ok r) : r.Sealed := by
  obtain ⟨s, hs, rfl⟩ := Except.map_eq_ok.1 h
  have hall : s.Sealed := by
    refine foldlM_induction (P := fun _ r => r.Sealed) (n := 0) hs (by simp [Sealed, none, KeyMap.values, KeyMap.empty])
      fun i criterion r r' _ hr hsealed => ?_
    rcases addCriterion_eq_ok hr with ⟨-, rfl⟩ | ⟨-, hv, rfl⟩
    · exact hsealed
    · exact hsealed.add (Criterion.sealed_predicate hv ha hn)
  split
  · unfold addUnit
    extract_lets placeholder
    have hp : NameChars placeholder := (isName_unitPlaceholder hn).2
    split
    · exact hall
    · exact hall.add (by simp +decide [ha, hu, hp])
  · exact hall

end Restriction

end LeadTime
