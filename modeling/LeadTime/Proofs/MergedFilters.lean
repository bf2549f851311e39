import LeadTime.Proofs.Compilation
import LeadTime.Proofs.Scope
import Mathlib

/-! What the filters of entities come to. Each that the rules translate is merged into the query in its turn: its predicates
as terms of their own, in their order, its entity as a join and its values as bindings. A filter that comes to no
predicates leaves nothing behind. -/
namespace LeadTime

open Sql

/-- A filter of an entity, as the rules translated it. -/
structure Translation where
  join : Join
  unitCounts : Bool
  restriction : Restriction

namespace Translation

/-- The text that a predicate stands as. Where users are scoped, rows without an entity that is not the anchor pass. -/
def term (t : Translation) (anchor : Anchor) (predicate : Expr) : String :=
  if t.unitCounts = true ∧ t.join ≠ anchor.join then
    "(" ++ t.join.tableAlias ++ ".id IS NULL OR " ++ predicate.text ++ ")"
  else predicate.text

def terms (t : Translation) (anchor : Anchor) : List String := t.restriction.predicates.values.map (t.term anchor)

def present (ts : List Translation) : List Translation := ts.filter fun t => !t.restriction.isEmpty

end Translation

namespace Scope

/-- The filters of entities, in their order, with what the rules make of them; that of issues only where there is an
issue system. -/
def entityFilters (s : Scope) : List (Join × Bool × Except String Restriction) :=
  ((if s.anchor.issueSystem = .none then none else s.filters.issues).toList.map fun f =>
      (.issue, f.orgUnitScoped, s.rules.issues f "im" s.filters.orgUnit)) ++
    (s.filters.pullRequests.toList.map fun f =>
      (.pullRequest, f.orgUnitScoped, s.rules.pullRequests f "pr" s.filters.orgUnit)) ++
    s.filters.commits.toList.map fun f => (.commit, f.orgUnitScoped, s.rules.commits f "c" s.filters.orgUnit)

/-- A composition merged these translations, between the anchor's integrations and other clauses. -/
structure Merges (s : Scope) (d d' : Draft) (conditions : List Expr) (ts : List Translation)
    (others : List ScopeClause) : Prop where
  /-- The rules translated all filters. -/
  translated : s.entityFilters = ts.map fun t => (t.join, t.unitCounts, .ok t.restriction)
  /-- The other clauses are the same whatever the rules are. -/
  posed : ∃ stack, ∀ rules, { s with rules := rules }.stackClause = .ok stack ∧
    others = { s with rules := rules }.ownClauses stack
  /-- Every predicate is a term, in this order. -/
  terms : conditions.map Expr.text = s.anchorPart.conditions.map Expr.text ++ ts.flatMap (·.terms s.anchor) ++
    (others.flatMap (·.conditions)).map Expr.text ++
    (s.scopedEntities d'.joins).map fun entity => (optionalCondition entity.1 entity.2.1).text
  /-- Joins are asked for where there are predicates. -/
  joins : d'.joins = d.joins.requestAll
    ((Translation.present ts).map (fun t => .held t.join) ++ others.flatMap (·.demand.requests))
  /-- Values are bound where there are predicates, those of scoped entities only under names that are still free. -/
  bindings : d'.bindings = bindIds
    (d.bindings.insertAll (s.anchorPart.demand.bindings ++
      (Translation.present ts).flatMap (·.restriction.bindings.entries) ++ others.flatMap (·.demand.bindings)))
    (s.scopedEntities d'.joins)

/-- A translation with predicates is in effect: its entity can be read, and each of its values is bound, unless one that
is written later goes by the same name. -/
structure Effects (d' : Draft) (t : Translation) (later : List (String × ParamValue)) : Prop where
  joined : d'.joins.isJoined t.join = true
  bound : ∀ pair ∈ t.restriction.bindings.entries, pair.1 ∈ d'.bindings.keys
  kept : ∀ pair ∈ t.restriction.bindings.entries,
    d'.bindings.get? pair.1 = some pair.2 ∨ pair.1 ∈ later.map Prod.fst

variable {s : Scope} {d d' : Draft} {conditions : List Expr} {ts : List Translation} {others : List ScopeClause}

section Clauses

def translationPart (s : Scope) (t : Translation) : ScopeClause :=
  if t.restriction.isEmpty then nothing else s.entityPart t.join t.unitCounts t.restriction

theorem entityClauses_eq (s : Scope) :
    s.entityClauses = s.entityFilters.map fun (j, unitCounts, restriction) => s.entityClause j unitCounts restriction := by
  have hissues : s.issues = if s.anchor.issueSystem = .none then none else s.filters.issues := by
    unfold issues Anchor.hasIssues
    by_cases h : s.anchor.issueSystem = .none <;> simp [h]
  simp only [entityClauses, entityFilters, List.map_append, List.map_map, hissues]
  rfl

theorem entityClause_translated (s : Scope) (t : Translation) :
    s.entityClause t.join t.unitCounts (.ok t.restriction) = .ok (s.translationPart t) := by
  simp only [entityClause, translationPart]
  split <;> rfl

theorem exists_translations {filters : List (Join × Bool × Except String Restriction)} {entities : List ScopeClause}
    (h : (filters.map fun (j, unitCounts, restriction) => s.entityClause j unitCounts restriction) = entities.map .ok) :
    ∃ ts : List Translation, filters = (ts.map fun t => (t.join, t.unitCounts, .ok t.restriction)) ∧
      entities = ts.map s.translationPart := by
  induction filters generalizing entities with
  | nil => exact ⟨[], rfl, by simpa using h⟩
  | cons filter rest ih =>
    obtain ⟨j, unitCounts, restriction⟩ := filter
    rw [List.map_cons, eq_comm, List.map_eq_cons_iff] at h
    obtain ⟨entity, more, rfl, hentity, hmore⟩ := h
    obtain ⟨ts, rfl, rfl⟩ := ih hmore.symm
    obtain ⟨r, rfl, -⟩ := entityClause_eq_ok hentity.symm
    refine ⟨⟨j, unitCounts, r⟩ :: ts, rfl, ?_⟩
    have htranslated := s.entityClause_translated ⟨j, unitCounts, r⟩
    rw [List.map_cons, Except.ok.inj (hentity.trans htranslated)]

theorem text_orMissing (j : Join) (p : Expr) : (Expr.anyOf [.isNull (.column j.tableAlias "id"), p]).text =
    "(" ++ j.tableAlias ++ ".id IS NULL OR " ++ p.text ++ ")" := by
  have hmissing (rest : String) : ".id" ++ (" IS NULL" ++ (" OR " ++ rest)) = ".id IS NULL OR " ++ rest := by
    rw [← String.append_assoc, ← String.append_assoc]
    rfl
  simp [Expr.anyOf, Expr.chain, Expr.text, Expr.tokens, Operator.text, Token.text, String.append_assoc, hmissing]

theorem terms_translationPart (s : Scope) (t : Translation) :
    (s.translationPart t).conditions.map Expr.text = t.terms s.anchor := by
  unfold translationPart
  split
  · rename_i hnone
    have hvalues : t.restriction.predicates.values = [] := by
      rw [KeyMap.values, List.isEmpty_iff.1 hnone, List.map_nil]
    simp [nothing, Translation.terms, hvalues]
  · by_cases hopen : t.unitCounts = true ∧ t.join ≠ s.anchor.join
    · simp [-Expr.anyOf, entityPart, Translation.terms, Translation.term, hopen, text_orMissing]
    · simp [entityPart, Translation.terms, Translation.term, hopen]

theorem flatMap_translationPart {β : Type} {f : ScopeClause → List β} (hf : f nothing = []) (s : Scope)
    (ts : List Translation) : (ts.map s.translationPart).flatMap f =
      (Translation.present ts).flatMap fun t => f (s.entityPart t.join t.unitCounts t.restriction) := by
  induction ts with
  | nil => rfl
  | cons t rest ih =>
    rw [List.map_cons, List.flatMap_cons, ih]
    cases h : t.restriction.isEmpty <;> simp [translationPart, Translation.present, h, hf]

end Clauses

theorem exists_merges (h : s.compose d = (d', .ok conditions)) : ∃ ts others, s.Merges d d' conditions ts others := by
  obtain ⟨clauses, hclauses, rfl, rfl⟩ := compose_eq_ok h
  obtain ⟨entities, stack, -, hentities, hstack, rfl⟩ := clauses_eq_ok hclauses
  rw [entityClauses_eq] at hentities
  obtain ⟨ts, hfilters, rfl⟩ := exists_translations hentities
  refine ⟨ts, s.ownClauses stack, hfilters, ⟨stack, fun rules => ⟨hstack, rfl⟩⟩, ?_, ?_, ?_⟩
  · have hterms : ((ts.map s.translationPart).flatMap (·.conditions)).map Expr.text = ts.flatMap (·.terms s.anchor) := by
      simp only [List.flatMap_map, List.map_flatMap, terms_translationPart]
    simp only [List.cons_append, List.flatMap_cons, List.flatMap_append, List.map_append, List.map_map, hterms,
      List.append_assoc]
    rfl
  · rw [Draft.joins_meetAll, List.cons_append, List.flatMap_cons, List.flatMap_append, flatMap_translationPart rfl,
      List.map_eq_flatMap]
    rfl
  · rw [Draft.bindings_meetAll, List.cons_append, List.flatMap_cons, List.flatMap_append, flatMap_translationPart rfl,
      List.append_assoc]
    rfl

theorem Merges.isJoined (h : s.Merges d d' conditions ts others) {t : Translation} (ht : t ∈ Translation.present ts) :
    d'.joins.isJoined t.join = true := by
  rw [h.joins]
  exact Registry.isJoined_of_mem_held (List.mem_append_left _ (List.mem_map_of_mem ht))

theorem Merges.effects (h : s.Merges d d' conditions ts others) {before after : List Translation} {t : Translation}
    (hts : ts = before ++ t :: after) (ht : t.restriction.isEmpty = false) :
    Effects d' t ((Translation.present after).flatMap (·.restriction.bindings.entries) ++
      others.flatMap (·.demand.bindings)) := by
  have hpresent : Translation.present ts = Translation.present before ++ t :: Translation.present after := by
    simp [Translation.present, hts, ht]
  have hbindings : d'.bindings = bindIds (d.bindings.insertAll ((s.anchorPart.demand.bindings ++
      (Translation.present before).flatMap (·.restriction.bindings.entries)) ++ t.restriction.bindings.entries ++
      ((Translation.present after).flatMap (·.restriction.bindings.entries) ++ others.flatMap (·.demand.bindings))))
      (s.scopedEntities d'.joins) := by
    rw [h.bindings, hpresent, List.flatMap_append, List.flatMap_cons]
    simp only [List.append_assoc]
  constructor
  case joined => exact h.isJoined (by rw [hpresent]; simp)
  case bound =>
    intro pair hp
    rw [hbindings, mem_keys_bindIds, KeyMap.mem_keys_insertAll]
    exact Or.inl (Or.inr (List.mem_map_of_mem (by simp [hp])))
  case kept =>
    intro pair hp
    refine or_iff_not_imp_right.2 fun hlater => ?_
    have honce : (t.restriction.bindings.entries.map Prod.fst).count pair.1 = 1 :=
      List.count_eq_one_of_mem t.restriction.bindings.nodup (List.mem_map_of_mem hp)
    rw [hbindings]
    refine get?_bindIds_of_bound ?_ _
    rw [KeyMap.insertAll_append, KeyMap.get?_insertAll_of_notMem hlater, KeyMap.insertAll_append]
    exact KeyMap.get?_insertAll_of_count hp honce

/-- A composition that does not fail merges the filters of entities without loss: their predicates are terms between that
of the anchor and all others, in their order, and rows without the entity pass exactly where users are scoped and the
entity is not the anchor. Where there are predicates, and only there, the entity is joined and the values are bound, up
to those that are bound later under the same name. -/
theorem merges_of_compose {s : Scope} {d d' : Draft} {conditions : List Expr}
    (h : s.compose d = (d', .ok conditions)) : ∃ ts others, s.Merges d d' conditions ts others ∧
      ∀ before t after, ts = before ++ t :: after → t.restriction.isEmpty = false →
        Effects d' t ((Translation.present after).flatMap (·.restriction.bindings.entries) ++
          others.flatMap (·.demand.bindings)) := by
  obtain ⟨ts, others, hmerges⟩ := exists_merges h
  exact ⟨ts, others, hmerges, fun before t after hts ht => hmerges.effects hts ht⟩

/-- Issues of a unit's users, with pull requests of the same users and commits of all. -/
def ofTeam : Scope where
  schema := "public"
  anchor := ⟨.issueVelocity, .workItems⟩
  rules := .criteria
  filters :=
    { issues := some ⟨["1"], [], none, true, .ofList [("exclude_project", ["A"])]⟩
      pullRequests := some ⟨["2"], true, .empty⟩
      commits := some ⟨["2"], false, .empty⟩
      jobRuns := none
      orgUnit := ⟨none, ["u"]⟩ }
  query := .standard
  lastJobRun := none

def termsOfTeam : List String :=
  ["im.integration_id IN (:jira_integration_ids)", "im.project NOT IN (:im_excl_project)",
    "im.assignee_id IN (:im_ou_user_ids)", "(pr.id IS NULL OR pr.creator_id IN (:pr_ou_user_ids))",
    "((pr.integration_id IN (:integration_ids)) OR (pr.integration_id IS NULL))",
    "((c.integration_id IN (:integration_ids)) OR (c.integration_id IS NULL))"]

theorem merges_ofTeam : ∃ d' conditions,
    ofTeam.compose (.empty ⟨"public", ofTeam.anchor, false, true⟩) = (d', .ok conditions) ∧
    conditions.map Expr.text = termsOfTeam ∧
    ∃ ts others, ofTeam.Merges (.empty ⟨"public", ofTeam.anchor, false, true⟩) d' conditions ts others ∧
      ∀ before t after, ts = before ++ t :: after → t.restriction.isEmpty = false →
        Effects d' t ((Translation.present after).flatMap (·.restriction.bindings.entries) ++
          others.flatMap (·.demand.bindings)) := by
  have hmapped : (ofTeam.compose (.empty ⟨"public", ofTeam.anchor, false, true⟩)).2.map (·.map Expr.text) =
      .ok termsOfTeam := by cbv
  obtain ⟨conditions, hok, htexts⟩ := Except.map_eq_ok.1 hmapped
  have hcompose : ofTeam.compose (.empty ⟨"public", ofTeam.anchor, false, true⟩) = (_, .ok conditions) :=
    Prod.ext rfl hok
  exact ⟨_, conditions, hcompose, htexts, merges_of_compose hcompose⟩

end Scope

end LeadTime
