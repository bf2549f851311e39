import LeadTime.Proofs.Registry.Order
import LeadTime.Proofs.Requests
import LeadTime.Proofs.SealedTerms
import LeadTime.Proofs.SharedRows
import LeadTime.Proofs.StageName
import Mathlib

/-! Terms that AND joins stay apart. A predicate that a filter became stands as a term of its own or in parentheses, beside
terms that are sealed. So where the predicates are conjuncts, all terms are: those on whole rows, those in the selects
that are joined, and those that lines are joined on. -/
namespace LeadTime

open Sql

/-- A property that sealed texts have, and none but balanced ones. -/
structure Sql.Seals (P : String → Prop) : Prop where
  of_sealed : ∀ {s : String}, Sealed s.toList → P s
  balanced : ∀ {s : String}, P s → Balanced s.toList

theorem Sql.seals_conjunct : Seals Conjunct := ⟨Sealed.conjunct, Conjunct.balanced⟩

theorem Sql.seals_standing : Seals Standing := ⟨Sealed.standing, Standing.balanced⟩

/-- All predicates have the property that the rules yield for rows which are read under this name. -/
structure FilterRules.Yields (rules : FilterRules) (P : String → Prop) (tableAlias : String) : Prop where
  issues : ∀ f unit r, rules.issues f tableAlias unit = .ok r → ∀ p ∈ r.predicates.values, P p.text
  pullRequests : ∀ f unit r, rules.pullRequests f tableAlias unit = .ok r → ∀ p ∈ r.predicates.values, P p.text
  commits : ∀ f unit r, rules.commits f tableAlias unit = .ok r → ∀ p ∈ r.predicates.values, P p.text
  jobRuns : ∀ f unit r, rules.jobRuns f tableAlias unit = .ok r → ∀ p ∈ r.predicates.values, P p.text

def Sql.JoinLine.Joins (P : String → Prop) (line : JoinLine) : Prop := ∀ e ∈ line.terms, P e.text

/-- All terms that AND joins have the property: on whole rows, in the selects that are joined, and where lines join. -/
structure Plan.Joins (P : String → Prop) (p : Plan) : Prop where
  rows : ∀ e ∈ p.layers.conditions, P e.text
  lines : ∀ line ∈ p.joins.lines, line.Joins P

namespace Sql

variable {P : String → Prop}

theorem JoinLine.mem_terms_extend {line : JoinLine} {conditions : List Expr} {e : Expr}
    (h : e ∈ (line.extend conditions).terms) : e ∈ line.terms ∨ e ∈ conditions := by
  cases line with
  | join side source as on =>
    simp only [JoinLine.extend, JoinLine.terms, List.mem_append] at h ⊢
    tauto
  | verbatim text => exact Or.inl h

theorem joins_extendLast {lines : List JoinLine} {conditions : List Expr} (h : ∀ line ∈ lines, line.Joins P)
    (hc : ∀ e ∈ conditions, P e.text) : ∀ line ∈ extendLast lines conditions, line.Joins P := by
  induction lines with
  | nil => simp [extendLast]
  | cons line rest ih =>
    rw [List.forall_mem_cons] at h
    cases rest with
    | nil => exact List.forall_mem_singleton.2 fun e he => (JoinLine.mem_terms_extend he).elim (h.1 e) (hc e)
    | cons next rest =>
      rw [extendLast, List.forall_mem_cons]
      · exact ⟨h.1, ih h.2⟩
      · simp

section Seals

variable (seals : Seals P)
include seals

theorem Seals.sealed {e : Expr} (h : e.Sealed) : P e.text := seals.of_sealed h.text

theorem Seals.line {line : JoinLine} (h : line.Sealed) : line.Joins P := fun e he => seals.sealed (h e he)

end Seals

end Sql

namespace Terms

variable {P : String → Prop} {a b : Terms}

def Joins (P : String → Prop) (t : Terms) : Prop := ∀ e ∈ t.conditions, P e.text

theorem Joins.append (ha : a.Joins P) (hb : b.Joins P) : (a ++ b).Joins P := by
  intro e he
  exact (List.mem_append.1 he).elim (ha e) (hb e)

theorem Sealed.joins (seals : Seals P) (h : a.Sealed) : a.Joins P := fun e he => seals.sealed (h e he)

end Terms

/-- The clause puts sealed conditions on whole rows, and the terms of its lines have the property. -/
structure StageClause.Joins (P : String → Prop) (c : StageClause) : Prop where
  predicates : ∀ e ∈ c.predicates, e.Sealed
  lines : ∀ j line, .supplied j line ∈ c.demand.requests → line.Joins P

namespace StageEvent.Clause

variable {P : String → Prop} {ctx : EventContext} {stage : Nat}

theorem joins_ofPullRequest (column : String) (aggregate : Aggregate) (branches : BranchFilter) :
    (ofPullRequest ctx stage column aggregate branches).Joins P := by
  have hterms := branches.sealed_terms stage
  cases ha : ctx.joins.anchor.isIssue with
  | true => exact ⟨by simp [ofPullRequest, ha], by simp [ofPullRequest, ha]⟩
  | false =>
    refine ⟨fun e he => ?_, by simp [ofPullRequest, ha]⟩
    simp only [ofPullRequest, ha, Bool.false_eq_true, if_false] at he
    exact hterms e he

section Seals

variable (seals : Seals P)
include seals

theorem joins_ofOwnLine {timestamp : Expr} {j d : Join} {table : Sql.Table} {tableAlias : String} {on : List Expr}
    {bindings : List (String × ParamValue)} (hon : ∀ e ∈ on, e.Sealed) :
    (ofTime timestamp [.held d, .supplied j (.leftTable table tableAlias on)] bindings).Joins P := by
  refine ⟨by simp [ofTime], fun _ line h => ?_⟩
  simp only [ofTime, List.mem_cons, List.not_mem_nil, or_false, reduceCtorEq, false_or,
    JoinRequest.supplied.injEq] at h
  rw [h.2]
  exact seals.line hon

theorem joins_ofLabel (labels : Option (List String)) : (ofLabel ctx stage labels).Joins P := by
  have ha := (Join.label stage).word_tableAlias
  have hp := (Placeholder.ofStage_value stage).isName.2
  refine joins_ofOwnLine seals ?_
  cases labels <;> simp +decide [ha, hp]

theorem joins_ofGenericEvent (types : List String) : (ofGenericEvent ctx stage types).Joins P := by
  have ha := (Join.genericEvent stage).word_tableAlias
  have hp := (Placeholder.ofStage_value stage).isName.2
  refine joins_ofOwnLine seals fun e he => ?_
  rcases List.mem_append.1 he with he | he
  · exact JoinContext.sealed_eventLink ha e he
  · split at he
    · cases he
    · rw [List.mem_singleton.1 he]
      simp +decide [ha, hp]

theorem joins_ofRun {before : List JoinRequest} {source : Source} {link : String → Expr}
    {bindings : List (String × ParamValue)} (hbefore : ∀ j line, .supplied j line ∉ before)
    (hsource : ∀ e ∈ source.terms, P e.text) (hlink : ∀ run, Word run → (link run).Sealed) :
    (ofRun stage before source link bindings).Joins P := by
  refine ⟨by simp [ofRun, ofTime], fun j line h => ?_⟩
  rcases List.mem_append.1 h with h | h
  · exact absurd h (hbefore j line)
  · cases List.mem_singleton.1 h
    intro e he
    refine (List.mem_append.1 he).elim (hsource e) fun he => ?_
    rw [List.mem_singleton.1 he]
    exact seals.sealed (hlink _ (Join.jobRun stage).word_tableAlias)

theorem joins_ofMappedRun {source : Source} {bindings : List (String × ParamValue)}
    (hsource : ∀ e ∈ source.terms, P e.text) : (ofMappedRun stage source bindings).Joins P :=
  joins_ofRun seals (by simp) hsource fun run hrun => by simp +decide [hrun]

theorem joins_deploySelect {deploy build : List Expr} (hdeploy : ∀ e ∈ deploy, P e.text)
    (hbuild : ∀ e ∈ build, P e.text) (schema : String) :
    ∀ e ∈ (Source.paired ((DeploySelect.mk deploy build).select schema)).terms, P e.text := by
  have hparams : ∀ e ∈ (RunSelect.params schema).on, P e.text :=
    fun e he => seals.sealed (List.forall_mem_singleton.2 (by simp +decide) e he)
  intro e he
  simp only [Source.terms, TableSelect.terms, DeploySelect.select, DeploySelect.side, List.flatMap_singleton,
    List.mem_append] at he
  rcases he with ((he | he) | he | he) | he
  · exact hparams e he
  · exact hdeploy e he
  · exact hparams e he
  · exact hbuild e he
  · rw [List.mem_singleton.1 he]
    exact seals.sealed (by simp +decide)

theorem joins_runSelect {terms : Terms} (h : terms.Joins P) (shape : RunShape) (runs : RunMatch) :
    ∀ e ∈ (runSelect ctx shape runs terms).terms, P e.text := by
  have hjoins (withParams : Bool) (schema : String) :
      ∀ e ∈ ((RunSelect.mk shape withParams terms.conditions).select schema).joins.flatMap (·.on), e.Sealed := by
    cases shape <;> cases withParams <;>
      simp +decide [RunSelect.select, RunSelect.jobs, RunSelect.params, RunSelect.artifacts]
  intro e he
  exact (List.mem_append.1 he).elim (fun he => seals.sealed (hjoins _ _ e he)) (h e)

variable (hruns : ∀ e ∈ ctx.runPredicates, P e.text)
include hruns

omit seals in
theorem joins_runPredicates : (runPredicates ctx stage).Joins P := fun e he => hruns e (mem_runPredicates he)

theorem joins_ofRuns (shape : RunShape) (runs : RunMatch) {filter : Terms} (hfilter : filter.Sealed) :
    (ofRuns ctx stage shape runs filter).Joins P :=
  joins_ofMappedRun seals (joins_runSelect seals
    ((((runs.sealed_terms stage 0).append hfilter).joins seals).append (joins_runPredicates hruns)) shape runs)

theorem joins_ofCdRuns (ci : Nat) (runs : RunMatch) (filter : RunFilter) :
    (ofCdRuns ctx stage ci runs filter).Joins P := by
  have hci := (Join.jobRun ci).word_tableAlias
  have hterms := ((runs.sealed_terms stage 0).append (filter.sealed_terms stage (some .cd))).joins seals
  unfold ofCdRuns
  refine joins_ofRun seals (fun _ _ => List.not_mem_nil)
    (joins_runSelect seals (hterms.append (joins_runPredicates hruns)) _ runs) fun run hrun => ?_
  simp +decide [hrun, hci]

theorem joins_ofDeploy (runs : RunMatch) (marker : String) (buildJobIds : List String) :
    (ofDeploy ctx stage runs marker buildJobIds).Joins P := by
  have hname := (Placeholder.ofStage_name stage 0).isName.2
  have hbuilds := (Placeholder.ofStage_indexedValue stage 0).isName.2
  unfold ofDeploy
  extract_lets name builds deploy build
  have hdeploy : deploy.Joins P :=
    (((runs.sealed_terms stage 1).append (.single (by simp +decide [name, hname]))).joins seals).append
      (joins_runPredicates hruns)
  have hbuild : build.Sealed := by
    simp only [build]
    split
    · exact .none
    · exact .single (by simp +decide [builds, hbuilds])
  exact joins_ofMappedRun seals (joins_deploySelect seals hdeploy (hbuild.joins seals) _)

end Seals

end StageEvent.Clause

/-- Whatever the event is, its clause adds no term without the property. -/
theorem StageEvent.joins_clause {P : String → Prop} (seals : Seals P) {event : StageEvent} {ctx : EventContext}
    {name : String} {stage : Nat} {clause : StageClause} (h : event.clause ctx name stage = .ok clause)
    (hruns : ∀ e ∈ ctx.runPredicates, P e.text) : clause.Joins P := by
  cases event with
  | cdJobRun runs filter =>
    obtain ⟨ci, -, rfl⟩ := clause_cdJobRun_eq_ok.1 h
    exact Clause.joins_ofCdRuns seals hruns _ runs filter
  | prCreated branches | prMerged branches =>
    cases h
    exact Clause.joins_ofPullRequest _ _ branches
  | prLabelAdded labels =>
    cases h
    exact Clause.joins_ofLabel seals labels
  | genericEvent types =>
    cases h
    exact Clause.joins_ofGenericEvent seals types
  | deployJobRun runs marker buildJobIds =>
    cases h
    exact Clause.joins_ofDeploy seals hruns runs marker buildJobIds
  | jobRun runs filter | ciJobRun runs filter =>
    cases h
    exact Clause.joins_ofRuns seals hruns _ runs (filter.sealed_terms _ _)
  | thirdPartyCiJobRun runs =>
    cases h
    exact Clause.joins_ofRuns seals hruns _ runs .none
  | _ =>
    cases h
    exact ⟨by simp [Clause.ofStatus, Clause.ofTime, Clause.ofReview],
      by simp [Clause.ofStatus, Clause.ofTime, Clause.ofReview]⟩

namespace Scope

variable {P : String → Prop} (seals : Seals P) {s : Scope}

variable (hrules : ∀ tableAlias ∈ Placeholder.filteredAliases, s.rules.Yields P tableAlias)
include hrules

theorem Restricts.yields {j : Join} {unitCounts : Bool} {r : Restriction} (h : s.Restricts j unitCounts r) :
    ∀ p ∈ r.predicates.values, P p.text := by
  rcases h with ⟨-, f, -, -, hr⟩ | ⟨-, f, -, -, hr⟩ | ⟨-, f, -, -, hr⟩
  · exact (hrules "im" (by decide)).issues f _ r hr
  · exact (hrules "pr" (by decide)).pullRequests f _ r hr
  · exact (hrules "c" (by decide)).commits f _ r hr

theorem joins_runTerms {terms : Terms} {warnings : List Warning} (h : s.runTerms = .ok (terms, warnings)) :
    terms.Joins P := by
  rcases runTerms_eq_ok h with rfl | ⟨-, f, r, -, hr, rfl⟩
  · exact fun _ he => absurd he List.not_mem_nil
  · exact (hrules "jr" (by decide)).jobRuns f _ r hr

include seals

theorem joins_entityPart {j : Join} {unitCounts : Bool} {r : Restriction} (h : s.Restricts j unitCounts r) :
    ∀ e ∈ (s.entityPart j unitCounts r).conditions, P e.text := by
  have hyields := h.yields hrules
  simp only [entityPart]
  split
  · intro e he
    obtain ⟨p, hp, rfl⟩ := List.mem_map.1 he
    exact seals.of_sealed (sealed_orMissing (seals.balanced (hyields p hp)))
  · exact hyields

theorem joins_of_mem {c : ScopeClause} {clauses : List ScopeClause} (h : s.clauses = clauses.map .ok)
    (hc : c ∈ clauses) : ∀ e ∈ c.conditions, P e.text := by
  obtain ⟨entities, stack, -, he, hs, rfl⟩ := clauses_eq_ok h
  rw [List.cons_append, List.mem_cons, List.mem_append] at hc
  rcases hc with rfl | hc | hc
  · exact fun e he => seals.sealed (sealed_anchorPart e he)
  · rcases mem_entityClauses (he ▸ List.mem_map_of_mem hc) with rfl | ⟨j, u, r, hr, -, rfl⟩
    · exact fun _ he => absurd he List.not_mem_nil
    · exact joins_entityPart seals hrules hr
  · exact fun e he => seals.sealed (sealed_ownClauses hs hc e he)

end Scope

namespace Compilation

variable {P : String → Prop} (seals : Seals P) {c : Compiler} {r : Request} (k : Compilation c r)
  (hrules : ∀ tableAlias ∈ Placeholder.filteredAliases, c.rules.Yields P tableAlias)
include seals hrules

theorem joins_clauseAt {i : Nat} {stage : Stage} {clause : StageClause} (h : k.ClauseAt i stage clause) :
    clause.Joins P := by
  obtain ⟨event, -, hc⟩ := h
  exact StageEvent.joins_clause seals hc (k.scope.joins_runTerms hrules k.ranOver)

theorem sealed_predicates : ∀ e ∈ k.progress.predicates, e.Sealed := by
  refine k.clauseInduction (P := fun _ s => ∀ e ∈ s.predicates, e.Sealed)
    (fun e he => absurd he List.not_mem_nil) fun i s stage event clause _ hclause ih e he => ?_
  exact (List.mem_append.1 he).elim (ih e) ((k.joins_clauseAt seals hrules hclause).predicates e)

omit hrules in
theorem joins_optional : ∀ entity ∈ k.scopedEntities, P (Scope.optionalCondition entity.1 entity.2.1).text := by
  intro entity he
  have hissue : NameChars Placeholder.issueIntegrationIds := by decide
  have hcode : NameChars Placeholder.codeIntegrationIds := by decide
  have hp : NameChars entity.2.1 := by
    have hm := List.mem_of_mem_filter he
    simp only [Scope.optionalEntities, List.mem_cons, List.not_mem_nil, or_false] at hm
    rcases hm with rfl | rfl | rfl
    · exact hissue
    · exact hcode
    · exact hcode
  exact seals.sealed (Scope.sealed_optionalCondition hp _)

theorem joins_conditions : ∀ e ∈ k.plan.layers.conditions, P e.text := by
  intro e he
  have he : e ∈ k.conditions ++ k.progress.predicates := he
  rcases List.mem_append.1 he with he | he
  · rcases List.mem_append.1 he with he | he
    · obtain ⟨clause, hm, he⟩ := List.mem_flatMap.1 he
      exact k.scope.joins_of_mem seals hrules k.posed hm e he
    · obtain ⟨entity, hm, rfl⟩ := List.mem_map.1 he
      exact k.joins_optional seals entity hm
  · exact seals.sealed (k.sealed_predicates seals hrules e he)

theorem joins_supplied {j : Join} {line : JoinLine} (h : k.Makes (.supplied j line)) : line.Joins P := by
  rcases h with h | ⟨-, hclause, h⟩ | h
  · rcases k.mem_firstRequests_cases h with h | h | h
    · cases h
    · cases h
    · have hproper := Registry.proper_of_closeAll (k.spec_start.closes (Registry.empty k.context)) _ h
      rcases k.spec_start.joins _ h with rfl | rfl <;> cases hproper.1
  · exact (k.joins_clauseAt seals hrules hclause).lines j line h
  · rcases Scope.requests_cases k.posed h with (h | h | h) | h <;> cases h
    exact seals.line (Scope.sealed_sprintLine _)

theorem joins_lines : ∀ line ∈ k.met.joins.lines, line.Joins P := by
  intro line hl
  obtain ⟨e, he, hl⟩ := List.mem_flatMap.1 hl
  have stems := k.stemsFrom_met e (Registry.mem_ordered.1 he)
  refine joins_extendLast ?_ (fun condition hc => ?_) line hl
  · obtain ⟨req, hreq, hputs⟩ := stems.lines
    have hown : ∀ line ∈ k.met.joins.context.lines e.join, line.Joins P := fun line hl =>
      seals.line (JoinContext.sealed_lines _ line hl)
    rcases hputs with ⟨-, hlines⟩ | ⟨-, hlines⟩ | ⟨line, rfl, hlines⟩ <;> rw [hlines]
    · exact hown
    · exact hown
    · exact List.forall_mem_singleton.2 (k.joins_supplied seals hrules hreq)
  · rcases (stems.conditions condition hc).condition with ⟨-, rfl⟩ | ⟨-, branches, stage, hm⟩
    · exact seals.sealed (by simp +decide)
    · exact seals.sealed (branches.sealed_terms stage condition hm)

theorem joins_plan : k.plan.Joins P := ⟨k.joins_conditions seals hrules, k.joins_lines seals hrules⟩

end Compilation

/-- Whatever the criteria are, their predicates have the property. -/
theorem FilterRules.yields_criteria {P : String → Prop} (seals : Seals P) {tableAlias : String}
    (h : tableAlias ∈ Placeholder.filteredAliases) : criteria.Yields P tableAlias := by
  have hname : Word tableAlias ∧ IsName tableAlias := by
    simp only [Placeholder.filteredAliases, List.mem_cons, List.not_mem_nil, or_false] at h
    rcases h with rfl | rfl | rfl | rfl <;> decide
  obtain ⟨ha, hn⟩ := hname
  have hyields {userColumn : String} (hu : Solid userColumn) {criteria : KeyMap (List String)} {unitCounts : Bool}
      {unit : OrgUnit} {r : Restriction}
      (hr : Restriction.ofCriteria userColumn criteria unitCounts tableAlias unit = .ok r) :
      ∀ p ∈ r.predicates.values, P p.text :=
    fun p hp => seals.sealed (Restriction.sealed_ofCriteria hu ha hn hr p hp)
  exact ⟨fun _ _ _ => hyields (by decide), fun _ _ _ => hyields (by decide), fun _ _ _ => hyields (by decide),
    fun _ _ _ => hyields (by decide)⟩

/-- In a query that compiles under rules which yield conjuncts, all terms that AND joins are conjuncts: those on whole
rows, which are written one after the other, those in selects, and those that lines are joined on. Where predicates also
stay conjuncts between blanks, so do the terms on whole rows as they are written. The rules of criteria yield such
predicates. -/
theorem Compiler.joins_conjuncts :
    (∀ (c : Compiler) (r : Request) (q : CompiledQuery),
      (∀ tableAlias ∈ Placeholder.filteredAliases, c.rules.Yields Conjunct tableAlias) → c.compile r = .ok q →
      ∃ p, c.plan r = .ok p ∧ p.query = q ∧ p.Joins Conjunct ∧
        (∃ before after, q.sql =
          before ++ "\nWHERE " ++ " AND ".intercalate (p.layers.conditions.map Expr.text) ++ after) ∧
        (∃ before after, q.sql = before ++ "\n".intercalate (p.joins.lines.map fun line => text line.tokens) ++ after) ∧
        ((∀ tableAlias ∈ Placeholder.filteredAliases, c.rules.Yields Standing tableAlias) →
          Standing (" AND ".intercalate (p.layers.conditions.map Expr.text)))) ∧
    ∀ tableAlias ∈ Placeholder.filteredAliases,
      FilterRules.criteria.Yields Conjunct tableAlias ∧ FilterRules.criteria.Yields Standing tableAlias := by
  refine ⟨fun c r q hrules h => ?_, fun _ ha =>
    ⟨FilterRules.yields_criteria seals_conjunct ha, FilterRules.yields_criteria seals_standing ha⟩⟩
  obtain ⟨k, rfl⟩ := Compilation.of_compile h
  refine ⟨k.plan, k.plan_eq_ok, rfl, k.joins_plan seals_conjunct hrules, k.written_plan.exists_where, k.written_plan.exists_lines,
    fun hstanding => ?_⟩
  refine standing_intercalate (by simpa using k.conditions_ne_nil) fun t ht => ?_
  obtain ⟨e, he, rfl⟩ := List.mem_map.1 ht
  exact (k.joins_plan seals_standing hstanding).rows e he

theorem Compiler.joins_delivery :
    (∀ tableAlias ∈ Placeholder.filteredAliases, FilterRules.criteria.Yields Conjunct tableAlias) ∧
    ∃ q p, (⟨.standard, .criteria⟩ : Compiler).compile .delivery = .ok q ∧
      (⟨.standard, .criteria⟩ : Compiler).plan .delivery = .ok p ∧ p.query = q ∧ p.Joins Conjunct ∧
      Standing (" AND ".intercalate (p.layers.conditions.map Expr.text)) := by
  obtain ⟨q, hq⟩ := exists_compile_eq_ok Request.isOk_plan_delivery
  have hrules := joins_conjuncts.2
  obtain ⟨p, hp, hpq, hjoins, -, -, hstanding⟩ := joins_conjuncts.1 ⟨.standard, .criteria⟩ .delivery q
    (fun tableAlias ha => (hrules tableAlias ha).1) hq
  exact ⟨fun tableAlias ha => (hrules tableAlias ha).1, q, p, hq, hp, hpq, hjoins,
    hstanding fun tableAlias ha => (hrules tableAlias ha).2⟩

end LeadTime
