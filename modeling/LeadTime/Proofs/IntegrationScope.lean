import LeadTime.Proofs.QueryText
import Mathlib

/-! The integrations that the rows of a query come from. The anchor's are always asked for; an issue, a pull request or
a commit that is joined besides, for whatever reason, is missing or comes from one of its own. No other step
binds the names of these lists, so that each is bound to the list that it stands for. -/
namespace LeadTime

open Sql

/-- The name is neither of those that integrations are bound to. -/
def Placeholder.Spared (name : String) : Prop := name ≠ issueIntegrationIds ∧ name ≠ codeIntegrationIds

instance (name : String) : Decidable (Placeholder.Spared name) := inferInstanceAs (Decidable (_ ∧ _))

def Restriction.SparesIntegrations (r : Restriction) : Prop := ∀ name ∈ r.bindings.keys, Placeholder.Spared name

/-- What the rules make of filters binds no name that integrations are bound to. -/
structure FilterRules.SparesIntegrations (rules : FilterRules) : Prop where
  issues : ∀ f unit r, rules.issues f Join.issue.tableAlias unit = .ok r → r.SparesIntegrations
  pullRequests : ∀ f unit r, rules.pullRequests f Join.pullRequest.tableAlias unit = .ok r → r.SparesIntegrations
  commits : ∀ f unit r, rules.commits f Join.commit.tableAlias unit = .ok r → r.SparesIntegrations
  jobRuns : ∀ f unit r, rules.jobRuns f Scope.runAlias unit = .ok r → r.SparesIntegrations

def Join.entities : List Join := [.issue, .pullRequest, .commit]

def Placeholder.integrationsOf : Join → String
  | .issue => issueIntegrationIds
  | _ => codeIntegrationIds

/-- The integrations that an entity may come from: those of the filter of issues, or those of the filter of pull
requests and, where it has none, of the filter of commits. -/
def EntityFilters.integrationsOf (f : EntityFilters) : Join → List String
  | .issue => (f.issues.map (·.integrationIds)).getD []
  | _ =>
    let ofPullRequests := (f.pullRequests.map (·.integrationIds)).getD []
    if ofPullRequests = [] then (f.commits.map (·.integrationIds)).getD [] else ofPullRequests

theorem Placeholder.Numbered.spared {name : String} (h : Placeholder.Numbered name) : Placeholder.Spared name := by
  constructor <;> rintro rfl <;> revert h <;> decide

theorem Placeholder.Spared.ne {name : String} (h : Placeholder.Spared name) (j : Join) :
    Placeholder.integrationsOf j ≠ name := by
  cases j <;> simp only [integrationsOf]
  case issue => exact h.1.symm
  all_goals exact h.2.symm

theorem EntityFilters.integrationsOf_congr (f : EntityFilters) {i j : Join}
    (h : Placeholder.integrationsOf i = Placeholder.integrationsOf j) : f.integrationsOf i = f.integrationsOf j := by
  have hne : Placeholder.issueIntegrationIds ≠ Placeholder.codeIntegrationIds := by decide
  cases i <;> cases j <;> first | rfl | exact absurd h hne | exact absurd h.symm hne

/-- The condition that an entity is missing or comes from one of the integrations that the name is bound to. -/
def Join.optionalText (j : Join) (name : String) : String :=
  "((" ++ j.tableAlias ++ ".integration_id IN (:" ++ name ++ ")) OR (" ++ j.tableAlias ++ ".integration_id IS NULL))"

/-- The rows of the query come from the integrations of the request. Of the conditions on whole rows, `filtered` are
those of its filters, and `own` all others but the first. -/
structure Plan.ScopesIntegrations (p : Plan) (f : EntityFilters) (filtered own : List Expr) : Prop where
  /-- The query is written with these conditions, and with the lines that give the plan's names of tables. -/
  written : p.Written
  /-- The condition on the anchor comes first. -/
  conditions : p.rowSelect.conditions =
    (p.pipeline.anchor.tableAlias ++ ".integration_id IN (:" ++ Placeholder.integrationsOf p.pipeline.anchor.join ++ ")") ::
      (filtered ++ own).map Expr.text
  nonempty : f.integrationsOf p.pipeline.anchor.join ≠ []
  anchor : p.query.bindings.get? (Placeholder.integrationsOf p.pipeline.anchor.join) =
    some (.textList (f.integrationsOf p.pipeline.anchor.join))
  /-- An entity has one condition if the chain names it and it has integrations, and no other. -/
  joined : ∀ j ∈ Join.entities, j ≠ p.pipeline.anchor.join → ∀ name,
    (own.map Expr.text).count (j.optionalText name) =
      if j.tableAlias ∈ p.aliases ∧ f.integrationsOf j ≠ [] ∧ name = Placeholder.integrationsOf j then 1 else 0
  bound : ∀ j ∈ Join.entities, j.tableAlias ∈ p.aliases → f.integrationsOf j ≠ [] →
    p.query.bindings.get? (Placeholder.integrationsOf j) = some (.textList (f.integrationsOf j))

namespace Join

theorem optionalText_inj {i j : Join} (hi : i ∈ entities) (hj : j ∈ entities) {a b : String} :
    i.optionalText a = j.optionalText b ↔ i = j ∧ a = b := by
  refine ⟨fun h => ?_, by rintro ⟨rfl, rfl⟩; rfl⟩
  have halias : i = j := by
    have hthird := congrArg (fun s => s.toList[2]?) h
    fin_cases hi <;> fin_cases hj <;> first | rfl | simp [optionalText, tableAlias] at hthird
  subst halias
  simpa only [optionalText, String.append_left_inj, String.append_right_inj, true_and] using h

end Join

namespace Sql.Expr

theorem text_among_integrations (table name : String) : ((Expr.column table "integration_id").among name).text =
    table ++ ".integration_id IN (:" ++ name ++ ")" := by
  have hin : ".integration_id IN (:" = "." ++ ("integration_id" ++ (" IN " ++ ("(" ++ ":"))) := rfl
  simp only [text, among, tokens, Operator.text, Token.text, text_append, text_cons, text_nil, hin, String.append_assoc,
    String.append_empty]

theorem text_ne_optionalText {e : Expr} {first : Char} (h : e.text.toList.head? = some first) (hfirst : first ≠ '(')
    (j : Join) (name : String) : e.text ≠ j.optionalText name := by
  intro heq
  rw [heq] at h
  refine hfirst ?_
  simpa [Join.optionalText, eq_comm] using h

theorem text_binary_ne_optionalText {operator : Operator} {table column : String} {right : Expr} {first : Char}
    {rest : List Char} (htable : table.toList = first :: rest) (hfirst : first ≠ '(') (j : Join) (name : String) :
    (Expr.binary operator (.column table column) right).text ≠ j.optionalText name :=
  text_ne_optionalText (by simp [text, tokens, Token.text, htable]) hfirst j name

end Sql.Expr

namespace Scope

variable {s : Scope}

theorem text_optionalCondition (j : Join) (name : String) : (optionalCondition j name).text = j.optionalText name := by
  have h : (optionalCondition j name).text = "(" ++ ("(" ++ (j.tableAlias ++ "." ++ "integration_id" ++ (" IN " ++
      ("(" ++ (":" ++ name ++ (")" ++ (")" ++ (" OR " ++ ("(" ++ (j.tableAlias ++ "." ++ "integration_id" ++
        (" IS NULL" ++ (")" ++ ")")))))))))))) := by
    simp [optionalCondition, Expr.text, Expr.anyOf, Expr.tokens, Expr.chain, Expr.among, Token.text, Operator.text]
  rw [h, Join.optionalText]
  apply String.toList_injective
  simp

theorem codeIds_eq (f : EntityFilters) : f.codeIds = f.integrationsOf .commit := by
  unfold EntityFilters.codeIds EntityFilters.integrationsOf
  cases f.pullRequests with
  | none => rfl
  | some p => cases h : p.integrationIds <;> simp [EntityFilters.codeIds.commitIds, h]

theorem optionalEntities_eq (s : Scope) : s.optionalEntities =
    Join.entities.map fun j => (j, Placeholder.integrationsOf j, s.filters.integrationsOf j) := by
  rw [optionalEntities, codeIds_eq]
  rfl

theorem anchorIds_eq (s : Scope) : s.anchorIds = s.filters.integrationsOf s.anchor.join := by
  unfold anchorIds Anchor.join
  rw [codeIds_eq]
  split <;> rfl

theorem anchorPlaceholder_eq (s : Scope) : s.anchorPlaceholder = Placeholder.integrationsOf s.anchor.join := by
  unfold anchorPlaceholder Anchor.join
  split <;> rfl

def scopedJoins (s : Scope) (joins : Registry) : List Join :=
  Join.entities.filter fun j => isScoped joins (j, Placeholder.integrationsOf j, s.filters.integrationsOf j)

theorem scopedEntities_eq (s : Scope) (joins : Registry) : s.scopedEntities joins =
    (s.scopedJoins joins).map fun j => (j, Placeholder.integrationsOf j, s.filters.integrationsOf j) := by
  rw [scopedEntities, optionalEntities_eq, List.filter_map]
  rfl

theorem mem_entities_of_scopedJoins {joins : Registry} {j : Join} (h : j ∈ s.scopedJoins joins) : j ∈ Join.entities :=
  List.mem_of_mem_filter h

/-- There is one condition for each joined entity, under the name of its integrations. -/
theorem count_scopedEntities (s : Scope) (joins : Registry) {j : Join} (hj : j ∈ Join.entities) (name : String) :
    ((s.scopedEntities joins).map fun entity => (optionalCondition entity.1 entity.2.1).text).count (j.optionalText name) =
      if j ∈ s.scopedJoins joins ∧ name = Placeholder.integrationsOf j then 1 else 0 := by
  have htexts : ((s.scopedEntities joins).map fun entity => (optionalCondition entity.1 entity.2.1).text) =
      (s.scopedJoins joins).map fun i => i.optionalText (Placeholder.integrationsOf i) := by
    rw [scopedEntities_eq, List.map_map]
    exact List.map_congr_left fun i _ => text_optionalCondition _ _
  have hnodup : ((s.scopedJoins joins).map fun i => i.optionalText (Placeholder.integrationsOf i)).Nodup := by
    refine List.Nodup.map_on (fun i hi i' hi' h => ?_) (List.Nodup.filter _ (by decide))
    exact ((Join.optionalText_inj (mem_entities_of_scopedJoins hi) (mem_entities_of_scopedJoins hi')).1 h).1
  rw [htexts, hnodup.count]
  refine if_congr ?_ rfl rfl
  rw [List.mem_map]
  constructor
  · rintro ⟨i, hi, h⟩
    obtain ⟨rfl, rfl⟩ := (Join.optionalText_inj (mem_entities_of_scopedJoins hi) hj).1 h
    exact ⟨hi, rfl⟩
  · rintro ⟨hm, rfl⟩
    exact ⟨j, hm, rfl⟩

theorem get?_bindIds_of_mem {s : Scope} {b : Bindings} {joins : List Join} {j : Join}
    (hb : ∀ i value, b.get? (Placeholder.integrationsOf i) = some value → value = .textList (s.filters.integrationsOf i))
    (hj : j ∈ joins) :
    (bindIds b (joins.map fun j => (j, Placeholder.integrationsOf j, s.filters.integrationsOf j))).get?
      (Placeholder.integrationsOf j) = some (.textList (s.filters.integrationsOf j)) := by
  induction joins generalizing b with
  | nil => simp at hj
  | cons i rest ih =>
    have hi := KeyMap.get?_insertNew_of_get? (hb i)
    rcases List.mem_cons.1 hj with rfl | hj
    · exact get?_bindIds_of_bound hi _
    · refine ih (fun i' value hv => ?_) hj
      -- Pull requests and commits share a name, and then have the same integrations.
      by_cases hn : Placeholder.integrationsOf i' = Placeholder.integrationsOf i
      · rw [hn, hi] at hv
        rw [s.filters.integrationsOf_congr hn]
        exact (Option.some.inj hv).symm
      · rw [KeyMap.get?_insertNew_of_ne hn] at hv
        exact hb i' value hv

end Scope

/-- The clause says nothing of integrations. -/
structure ScopeClause.Apart (c : ScopeClause) : Prop where
  names : ∀ name ∈ c.names, Placeholder.Spared name
  conditions : ∀ e ∈ c.conditions, ∀ j name, e.text ≠ Join.optionalText j name

namespace Scope

variable {s : Scope}

theorem Own.apart {c : ScopeClause} (h : s.Own c) : c.Apart := by
  have hissues : "im".toList = 'i' :: ['m'] := rfl
  cases h with
  | nothing => exact ⟨by simp [ScopeClause.names, Scope.nothing, Demand.none], by simp [Scope.nothing]⟩
  | active value =>
    refine ⟨by simp +decide [ScopeClause.names, activeClause], fun e he j name h => ?_⟩
    rw [List.mem_singleton.1 he] at h
    have hsecond := congrArg (fun s => s.toList[1]?) h
    simp [Expr.text, Expr.anyOf, Expr.chain, Expr.equal, Expr.tokens, Token.text, Join.optionalText] at hsecond
  | sprints states issues =>
    exact ⟨by simp +decide [ScopeClause.names, sprintsOf], by simp [sprintsOf]⟩
  | stack kind =>
    refine ⟨by simp +decide [ScopeClause.names, stackPart], fun e he j name => ?_⟩
    rw [List.mem_singleton.1 he]
    split <;> exact Expr.text_binary_ne_optionalText hissues (by decide) j name
  | trend =>
    refine ⟨by simp +decide [ScopeClause.names, trendPart], fun e he j name => ?_⟩
    rw [List.mem_singleton.1 he, Anchor.trend]
    split
    · exact Expr.text_binary_ne_optionalText hissues (by decide) j name
    · refine Expr.text_ne_optionalText ?_ (by decide : 'E' ≠ '(') j name
      simp [Expr.text, Expr.tokens, Expr.among, Token.text]
  | @ended stage placeholder operator instant last named =>
    refine ⟨by simpa [ScopeClause.names, endBound] using named.numbered.spared, fun e he j name => ?_⟩
    rw [List.mem_singleton.1 he]
    exact Expr.text_binary_ne_optionalText (String.toList_append ..) (by decide) j name

theorem Restricts.spared (hrules : s.rules.SparesIntegrations) {j : Join} {unitCounts : Bool} {r : Restriction}
    (h : s.Restricts j unitCounts r) : r.SparesIntegrations := by
  rcases h with ⟨rfl, f, -, -, hr⟩ | ⟨rfl, f, -, -, hr⟩ | ⟨rfl, f, -, -, hr⟩
  · exact hrules.issues f _ r hr
  · exact hrules.pullRequests f _ r hr
  · exact hrules.commits f _ r hr

theorem spared_entityClauses (hrules : s.rules.SparesIntegrations) {entities : List ScopeClause}
    (h : s.entityClauses = entities.map .ok) : ∀ c ∈ entities, ∀ name ∈ c.names, Placeholder.Spared name := by
  intro c hc name hn
  rcases mem_entityClauses (h ▸ List.mem_map_of_mem hc) with rfl | ⟨j, u, r, hr, -, rfl⟩
  · exact Own.nothing (s := s).apart.names name hn
  · exact hr.spared hrules name hn

end Scope

theorem StageEvent.predicates_clause {ctx : EventContext} {name : String} {stage : Nat} {event : StageEvent}
    {clause : StageClause} (h : event.clause ctx name stage = .ok clause) :
    ∀ p ∈ clause.predicates, ∃ operator column right, p = .binary operator (.column "pr" column) right := by
  have ofPullRequest (column : String) (aggregate : Aggregate) (branches : BranchFilter) :
      ∀ p ∈ (Clause.ofPullRequest ctx stage column aggregate branches).predicates,
        ∃ operator column right, p = .binary operator (.column "pr" column) right := by
    intro p hp
    simp only [Clause.ofPullRequest] at hp
    split at hp
    · simp at hp
    · exact branches.compares_terms stage p hp
  cases event with
  | prCreated branches | prMerged branches =>
    cases h
    exact ofPullRequest _ _ branches
  | cdJobRun runs filter =>
    obtain ⟨ci, -, rfl⟩ := clause_cdJobRun_eq_ok.1 h
    exact fun p hp => absurd hp List.not_mem_nil
  | _ =>
    cases h
    exact fun p hp => absurd hp List.not_mem_nil

namespace Compilation

variable {c : Compiler} {r : Request} (k : Compilation c r)

theorem predicates_progress : ∀ p ∈ k.progress.predicates, ∀ j name, p.text ≠ Join.optionalText j name := by
  have h := k.induction
    (P := fun _ s => ∀ p ∈ s.predicates, ∃ operator column right, p = .binary operator (.column "pr" column) right)
    (by simp [first]) fun i s stage event clause _ _ hc _ hs p hp =>
      (List.mem_append.1 hp).elim (hs p) (StageEvent.predicates_clause hc p)
  intro p hp j name
  obtain ⟨operator, column, right, rfl⟩ := h p hp
  exact Expr.text_binary_ne_optionalText rfl (by decide) j name

section Bindings

variable (hrules : c.rules.SparesIntegrations)
include hrules

theorem spared_progress : ∀ name ∈ k.progress.draft.bindings.keys, Placeholder.Spared name := by
  refine (k.stages (P := fun _ s => ∀ name ∈ s.draft.bindings.keys, Placeholder.Spared name) ?_ ?_).1
  · intro name hn
    rw [bindings_first, KeyMap.mem_keys_insertAll, List.map_append, List.mem_append] at hn
    rcases hn with hn | hn | hn
    · simp at hn
    · rw [k.spec_start.named name hn]
      decide
    · rcases Scope.runTerms_eq_ok k.ranOver with h | ⟨-, f, res, -, hr, h⟩ <;> rw [h] at hn
      · simp at hn
      · exact hrules.jobRuns f _ res hr name hn
  · intro i s stage event clause _ _ spec _ hs name hn
    rcases KeyMap.mem_keys_insertAll.1 hn with hn | hn
    · exact hs name hn
    · exact (spec.named name hn).numbered.spared

/-- Before joined entities are scoped, the anchor's integrations are bound, and no others. -/
theorem get?_met (j : Join) : k.met.bindings.get? (Placeholder.integrationsOf j) =
    if Placeholder.integrationsOf j = Placeholder.integrationsOf k.pipeline.anchor.join then
      some (.textList (r.filters.integrationsOf j))
    else none := by
  obtain ⟨entities, stack, -, he, hs, hc⟩ := Scope.clauses_eq_ok k.posed
  have hrest : ∀ name ∈ ((entities ++ k.scope.ownClauses stack).flatMap (·.demand.bindings)).map Prod.fst,
      Placeholder.Spared name := by
    intro name hn
    rw [List.map_flatMap, List.mem_flatMap] at hn
    obtain ⟨clause, hm, hn⟩ := hn
    rcases List.mem_append.1 hm with hm | hm
    · exact Scope.spared_entityClauses hrules he clause hm name hn
    · exact (Scope.own_of_mem hs hm).apart.names name hn
  have hbindings : k.clauses.flatMap (·.demand.bindings) = (k.scope.anchorPlaceholder, .textList k.scope.anchorIds) ::
      (entities ++ k.scope.ownClauses stack).flatMap (·.demand.bindings) := by
    rw [hc, List.cons_append, List.flatMap_cons]
    rfl
  have hprogress : Placeholder.integrationsOf j ∉ k.progress.draft.bindings.keys := fun hn =>
    (k.spared_progress hrules _ hn).ne j rfl
  rw [met, Draft.bindings_meetAll, hbindings, KeyMap.insertAll_cons,
    KeyMap.get?_insertAll_of_notMem fun hn => (hrest _ hn).ne j rfl]
  rw [Scope.anchorPlaceholder_eq, Scope.anchorIds_eq]
  split
  · rename_i hn
    rw [hn, r.filters.integrationsOf_congr hn]
    exact KeyMap.get?_insert_self
  · rename_i hn
    exact (KeyMap.get?_insert_of_ne hn).trans (KeyMap.get?_eq_none_of_notMem hprogress)

/-- What the integrations of an entity are bound to at the end: of the anchor, and of what is scoped. -/
theorem get?_bindings {j : Join} (h : j = k.pipeline.anchor.join ∨ j ∈ k.scope.scopedJoins k.met.joins) :
    k.bindings.get? (Placeholder.integrationsOf j) = some (.textList (r.filters.integrationsOf j)) := by
  rw [bindings, scopedEntities, Scope.scopedEntities_eq]
  rcases h with rfl | h
  · exact Scope.get?_bindIds_of_bound (by rw [k.get?_met hrules, if_pos rfl]) _
  · refine Scope.get?_bindIds_of_mem (fun i value hv => ?_) h
    rw [k.get?_met hrules] at hv
    split at hv
    · exact (Option.some.inj hv).symm
    · cases hv

end Bindings

theorem mem_scopedJoins {j : Join} (hj : j ∈ Join.entities) : j ∈ k.scope.scopedJoins k.met.joins ↔
    j ≠ k.pipeline.anchor.join ∧ j.tableAlias ∈ k.plan.aliases ∧ r.filters.integrationsOf j ≠ [] := by
  rw [aliases_plan, k.formed_met.mem_aliases_iff, Scope.scopedJoins, List.mem_filter, and_iff_right hj]
  have hanchor : k.met.joins.isAnchor j = true ↔ j = k.pipeline.anchor.join := by
    rw [Registry.isAnchor_iff, context_met]
    rfl
  simp only [Scope.isScoped, Bool.and_eq_true, Bool.not_eq_true', List.isEmpty_eq_false_iff, ne_eq, ← hanchor,
    Bool.not_eq_true, and_assoc]
  rfl

def scoping : List Expr := k.scopedEntities.map fun entity => Scope.optionalCondition entity.1 entity.2.1

/-- The conditions of a query: the anchor's, those of filters, and others, of which none but those of joined entities is
about integrations. -/
theorem conditions_eq : ∃ (entities : List ScopeClause) (others : List Expr), k.scope.entityClauses = entities.map .ok ∧
    k.plan.layers.conditions = (Expr.column k.pipeline.anchor.tableAlias "integration_id").among
      (Placeholder.integrationsOf k.pipeline.anchor.join) ::
        entities.flatMap ScopeClause.conditions ++ (others ++ k.scoping ++ k.progress.predicates) ∧
    ∀ e ∈ others, ∀ j name, e.text ≠ Join.optionalText j name := by
  obtain ⟨entities, stack, -, he, hs, hc⟩ := Scope.clauses_eq_ok k.posed
  refine ⟨entities, (k.scope.ownClauses stack).flatMap ScopeClause.conditions, he, ?_, fun e he => ?_⟩
  · have hplan : k.plan.layers.conditions =
        k.clauses.flatMap ScopeClause.conditions ++ k.scoping ++ k.progress.predicates := rfl
    rw [hplan, hc, List.cons_append, List.flatMap_cons, List.flatMap_append, Scope.anchorPart,
      Scope.anchorPlaceholder_eq]
    simp only [List.append_assoc, List.cons_append, List.nil_append]
    rfl
  · obtain ⟨clause, hm, he⟩ := List.mem_flatMap.1 he
    exact (Scope.own_of_mem hs hm).apart.conditions e he

theorem count_conditions {others : List Expr} (hothers : ∀ e ∈ others, ∀ j name, e.text ≠ Join.optionalText j name)
    {j : Join} (hj : j ∈ Join.entities) (hanchor : j ≠ k.pipeline.anchor.join) (name : String) :
    ((others ++ k.scoping ++ k.progress.predicates).map Expr.text).count (j.optionalText name) =
      if j.tableAlias ∈ k.plan.aliases ∧ r.filters.integrationsOf j ≠ [] ∧ name = Placeholder.integrationsOf j then 1
      else 0 := by
  have hnone {conditions : List Expr} (h : ∀ e ∈ conditions, ∀ j name, e.text ≠ Join.optionalText j name) :
      (conditions.map Expr.text).count (j.optionalText name) = 0 :=
    List.count_eq_zero.2 fun hm => by
      obtain ⟨e, he, heq⟩ := List.mem_map.1 hm
      exact h e he j name heq
  have hscoping : (k.scoping.map Expr.text).count (j.optionalText name) =
      if j ∈ k.scope.scopedJoins k.met.joins ∧ name = Placeholder.integrationsOf j then 1 else 0 := by
    rw [scoping, List.map_map]
    exact Scope.count_scopedEntities _ _ hj name
  rw [List.map_append, List.map_append, List.count_append, List.count_append, hnone hothers, hnone k.predicates_progress,
    Nat.zero_add, Nat.add_zero, hscoping]
  simp only [k.mem_scopedJoins hj, ne_eq, hanchor, not_false_eq_true, true_and, and_assoc]

end Compilation

theorem Restriction.Fit.spared {r : Restriction} {tableAlias : String} (h : r.Fit tableAlias)
    (ha : tableAlias ∈ ["im", "pr", "c", "jr"]) : r.SparesIntegrations := by
  intro name hn
  obtain ⟨rest, rfl⟩ := h.named name hn
  fin_cases ha <;> constructor <;> intro h <;>
    simpa [Placeholder.issueIntegrationIds, Placeholder.codeIntegrationIds] using congrArg String.toList h

/-- Criteria bind names that start with the name of their table, which no name of integrations does. -/
theorem FilterRules.sparesIntegrations_criteria : FilterRules.criteria.SparesIntegrations where
  issues _ _ _ hr := (Restriction.fit_ofCriteria (by decide) (by decide) hr).spared (by decide)
  pullRequests _ _ _ hr := (Restriction.fit_ofCriteria (by decide) (by decide) hr).spared (by decide)
  commits _ _ _ hr := (Restriction.fit_ofCriteria (by decide) (by decide) hr).spared (by decide)
  jobRuns _ _ _ hr := (Restriction.fit_ofCriteria (by decide) (by decide) hr).spared (by decide)

/-- Whatever the rules make of filters, as long as they leave the names of integrations alone: where compiling
succeeds, no row comes from other integrations than those of the request. -/
theorem Compiler.scopesIntegrations_of_compile {c : Compiler} {r : Request} {q : CompiledQuery}
    (hrules : c.rules.SparesIntegrations) (h : c.compile r = .ok q) :
    ∃ (p : Plan) (entities : List ScopeClause) (own : List Expr), c.plan r = .ok p ∧ p.query = q ∧
      (c.scope r p.pipeline).entityClauses = entities.map .ok ∧
        p.ScopesIntegrations r.filters (entities.flatMap ScopeClause.conditions) own := by
  obtain ⟨p, hp, rfl⟩ := Except.map_eq_ok.1 h
  obtain ⟨k, rfl⟩ := Compilation.of_plan hp
  obtain ⟨entities, others, he, hconditions, hothers⟩ := k.conditions_eq
  obtain ⟨-, -, hids, -⟩ := Scope.clauses_eq_ok k.posed
  refine ⟨_, entities, others ++ k.scoping ++ k.progress.predicates, hp, rfl, he, {
    written := k.written_plan
    conditions := ?_
    nonempty := ?_
    anchor := k.get?_bindings hrules (Or.inl rfl)
    joined := fun j hj hanchor name => k.count_conditions hothers hj hanchor name
    bound := fun j hj hjoined hne => ?_ }⟩
  · show k.plan.layers.conditions.map Expr.text = _
    rw [hconditions, List.cons_append, List.map_cons, Expr.text_among_integrations]
    rfl
  · rw [Scope.anchorIds_eq] at hids
    exact hids
  · refine k.get?_bindings hrules ?_
    by_cases hanchor : j = k.pipeline.anchor.join
    · exact Or.inl hanchor
    · exact Or.inr ((k.mem_scopedJoins hj).2 ⟨hanchor, hjoined, hne⟩)

theorem Compiler.scopesIntegrations_delivery :
    ∃ q, (⟨.standard, .criteria⟩ : Compiler).compile .delivery = .ok q ∧
      ∃ (p : Plan) (entities : List ScopeClause) (own : List Expr),
        (⟨.standard, .criteria⟩ : Compiler).plan .delivery = .ok p ∧ p.query = q ∧
          ((⟨.standard, .criteria⟩ : Compiler).scope .delivery p.pipeline).entityClauses = entities.map .ok ∧
            p.ScopesIntegrations Request.delivery.filters (entities.flatMap ScopeClause.conditions) own := by
  obtain ⟨q, hq⟩ := exists_compile_eq_ok Request.isOk_plan_delivery
  exact ⟨q, hq, scopesIntegrations_of_compile FilterRules.sparesIntegrations_criteria hq⟩

end LeadTime
