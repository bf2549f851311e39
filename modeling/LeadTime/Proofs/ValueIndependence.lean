import LeadTime.Proofs.Revaluation.Pipeline
import LeadTime.Proofs.Revaluation.Scope
import Mathlib

/-! The text of a query does not depend on the values that users hand in. Two requests that differ in these alone compile
alike: both fail, or both give the same text with the same names to bind. -/
namespace LeadTime

open Sql

variable (v : Revaluation)

structure Draft.Alike (a b : Draft) : Prop where
  joins : b.joins = a.joins
  names : b.bindings.keys = a.bindings.keys

namespace Draft

variable {d d' : Draft}

theorem Alike.meet (h : d.Alike d') {demand demand' : Demand} (hd : demand.Alike demand') :
    (d.meet demand).Alike (d'.meet demand') where
  joins := by rw [Draft.meet, Draft.meet, h.joins, hd.requests]
  names := KeyMap.keys_insertAll_congr h.names hd.names

/-- Clauses that are alike leave drafts alike up to the first that fails, and say the same. -/
theorem Alike.meetEach {steps steps' : List (Except Error ScopeClause)} (h : d.Alike d')
    (hs : List.Forall₂ (Agree ScopeClause.Alike) steps steps') :
    (d.meetEach steps).1.Alike (d'.meetEach steps').1 ∧ Agree Eq (d.meetEach steps).2 (d'.meetEach steps').2 := by
  induction hs generalizing d d' with
  | nil => exact ⟨h, .ok rfl⟩
  | cons hstep _ ih =>
    cases hstep with
    | error => exact ⟨h, .error⟩
    | ok hc =>
      obtain ⟨hd, hr⟩ := ih (h.meet hc.demand)
      exact ⟨hd, hr.map fun _ _ he => by rw [he, hc.conditions]⟩

end Draft

namespace Scope

variable (s : Scope)

def retextEntity (f : String → String) (entity : Join × String × List String) : Join × String × List String :=
  (entity.1, entity.2.1, entity.2.2.map f)

theorem scopedEntities_revalue (joins : Registry) :
    (s.revalue v).scopedEntities joins = (s.scopedEntities joins).map (retextEntity v.text) := by
  have hentities : (s.revalue v).optionalEntities = s.optionalEntities.map (retextEntity v.text) := by
    simp only [optionalEntities, filters_revalue, EntityFilters.issueIds_filters, EntityFilters.codeIds_filters]
    rfl
  have hscoped : isScoped joins ∘ retextEntity v.text = isScoped joins := by
    funext entity
    simp [isScoped, retextEntity]
  rw [scopedEntities, scopedEntities, hentities, List.filter_map, hscoped]

theorem keys_bindIds_retextEntity {b b' : Bindings} (h : b'.keys = b.keys)
    (entities : List (Join × String × List String)) :
    (bindIds b' (entities.map (retextEntity v.text))).keys = (bindIds b entities).keys := by
  induction entities generalizing b b' with
  | nil => exact h
  | cons entity rest ih => exact ih (KeyMap.keys_insertNew_congr h _ _)

theorem alike_compose (hrules : s.rules = .criteria) {d d' : Draft} (h : d.Alike d') :
    (s.compose d).1.Alike ((s.revalue v).compose d').1 ∧ Agree Eq (s.compose d).2 ((s.revalue v).compose d').2 := by
  obtain ⟨hd, hr⟩ := h.meetEach (s.alike_clauses v hrules)
  simp only [compose]
  cases hm : d.meetEach s.clauses with
  | mk e result =>
    cases hm' : d'.meetEach (s.revalue v).clauses with
    | mk e' result' =>
      rw [hm, hm'] at hd hr
      cases hr with
      | error => exact ⟨hd, .error⟩
      | ok hc =>
        have hjoins : e'.joins = e.joins := hd.joins
        have hentities := s.scopedEntities_revalue v e.joins
        simp only [scopedEntities] at hentities
        simp only [scopeEntities_eq, hjoins, hentities, List.map_map]
        exact ⟨⟨rfl, keys_bindIds_retextEntity v hd.names _⟩, .ok (by rw [hc]; rfl)⟩

theorem agree_runTerms (hrules : s.rules = .criteria) :
    Agree (fun x y : Terms × List Warning => x.1.Alike y.1) s.runTerms (s.revalue v).runTerms := by
  have hrules' : (s.revalue v).rules = .criteria := hrules
  rw [runTerms, runTerms, filters_revalue, hrules, hrules', lastJobRun_revalue, Revaluation.filters]
  cases s.filters.jobRuns with
  | none => exact .ok (.refl _)
  | some f =>
    have hr := Restriction.agree_ofCriteria v "cicd_user_id" f.criteria f.orgUnitScoped runAlias s.filters.orgUnit
    simp only [Option.map_some, FilterRules.criteria, Revaluation.jobRunFilter]
    generalize Restriction.ofCriteria "cicd_user_id" f.criteria f.orgUnitScoped runAlias s.filters.orgUnit = x at hr ⊢
    generalize Restriction.ofCriteria "cicd_user_id" (v.criteria f.criteria) f.orgUnitScoped runAlias
      (v.orgUnit s.filters.orgUnit) = y at hr ⊢
    cases hr with
    | error => exact .error
    | ok h =>
      simp only [h.isEmpty]
      split
      · exact .ok (.refl _)
      · split
        · exact .ok (.refl _)
        · exact .ok ⟨congrArg KeyMap.values h.predicates, h.names⟩

end Scope

structure StageProgress.Alike (a b : StageProgress) : Prop where
  draft : a.draft.Alike b.draft
  previousCi : b.previousCi = a.previousCi
  columns : b.columns = a.columns
  predicates : b.predicates = a.predicates

theorem StageProgress.agree_addStage (last : Option Nat) (runs : List Expr) (indexed : Stage × Nat)
    {s s' : StageProgress} (h : s.Alike s') :
    Agree Alike (addStage last runs s indexed) (addStage last runs s' (Stage.retextIndexed v.text indexed)) := by
  obtain ⟨stage, index⟩ := indexed
  simp only [addStage, Stage.retextIndexed]
  refine (StageEvent.agree_ofStage stage).bind fun event event' he => ?_
  rw [he, h.draft.joins, h.previousCi, Stage.name_retext]
  refine (StageEvent.agree_clause _ _ _ event).bind fun clause clause' hc => .ok ?_
  exact {
    draft := h.draft.meet hc.demand
    previousCi := by simp only [StageEvent.nextCi, StageEvent.kind_retext]
    columns := by rw [h.columns, hc.timestamp, hc.aggregate]
    predicates := by rw [h.predicates, hc.predicates] }

theorem Pipeline.agree_addStages (p : Pipeline) {runs runs' : List Expr} (hruns : runs' = runs)
    {s s' : StageProgress} (h : s.Alike s') :
    Agree StageProgress.Alike (p.stages.zipIdx.foldlM (StageProgress.addStage p.lastJobRun? runs) s)
      ((p.retext v.text).stages.zipIdx.foldlM
        (StageProgress.addStage (p.retext v.text).lastJobRun? runs') s') := by
  rw [zipIdx_retext, lastJobRun?_retext, hruns]
  exact .foldlM (fun indexed _ _ h => StageProgress.agree_addStage v _ runs indexed h) h

namespace StartTime

theorem alike_typeDemand (f : String → String) (types : List String) :
    (typeDemand types).Alike (typeDemand (types.map f)) := by
  rw [typeDemand, typeDemand, List.isEmpty_map]
  split <;> exact ⟨rfl, rfl⟩

theorem alike_clause (f : String → String) (anchor : Anchor) (start : StartTime) :
    ((start.retext f).clause anchor).expression = (start.clause anchor).expression ∧
      (start.clause anchor).demand.Alike ((start.retext f).clause anchor).demand := by
  induction start with
  | anchorCreated | commitCreated => exact ⟨rfl, rfl, rfl⟩
  | genericEvent types otherwise ih =>
    obtain ⟨he, hd⟩ := ih
    refine ⟨?_, (hd.append (.refl _)).append (alike_typeDemand f types)⟩
    simp only [retext, clause, he]

end StartTime

/-- The same text and joins, with values bound to the same names. -/
structure Plan.Alike (a b : Plan) : Prop where
  stages : b.pipeline.stages.length = a.pipeline.stages.length
  shape : b.shape = a.shape
  layers : b.layers = a.layers
  names : b.bindings.keys = a.bindings.keys

theorem Plan.Alike.tokens {a b : Plan} (h : a.Alike b) : b.tokens = a.tokens := by
  rw [Plan.tokens, Plan.tokens, h.shape, h.stages, h.layers]

theorem Plan.Alike.countTokens {a b : Plan} (h : a.Alike b) : b.countTokens = a.countTokens := by
  rw [Plan.countTokens, Plan.countTokens, h.shape, h.stages, h.layers]

namespace Compiler

variable (c : Compiler) (r : Request)

theorem needsFreshness_query (q : Query) : (v.query q).needsFreshness = q.needsFreshness := by
  simp only [Query.needsFreshness, isEmpty_trendKeys_query]
  rfl

theorem joinContext_query (q : Query) (anchor : Anchor) :
    c.joinContext (v.query q) anchor = c.joinContext q anchor := by
  rw [joinContext, joinContext, needsFreshness_query]

theorem firstRequests_query (q : Query) (anchor : Anchor) :
    firstRequests (v.query q) anchor = firstRequests q anchor := by
  rw [firstRequests, firstRequests, needsFreshness_query]

theorem scope_request (p : Pipeline) : c.scope (v.request r) (p.retext v.text) = (c.scope r p).revalue v := by
  simp only [scope, Pipeline.lastJobRun?_retext]
  rfl

theorem alike_first (q : Query) (anchor : Anchor) {start start' : Demand} (hs : start.Alike start')
    {terms terms' : Terms} (ht : terms.Alike terms') :
    ((Draft.empty (c.joinContext q anchor)).meet
        (⟨firstRequests q anchor, []⟩ ++ start ++ ⟨[], terms.bindings⟩)).Alike
      ((Draft.empty (c.joinContext (v.query q) anchor)).meet
        (⟨firstRequests (v.query q) anchor, []⟩ ++ start' ++ ⟨[], terms'.bindings⟩)) := by
  rw [joinContext_query, firstRequests_query]
  exact Draft.Alike.meet ⟨rfl, rfl⟩ (((Demand.Alike.refl _).append hs).append ⟨rfl, ht.names⟩)

/-- A request is planned under new values where it is, and the plans are alike. -/
theorem agree_plan (hrules : c.rules = .criteria) : Agree Plan.Alike (c.plan r) (c.plan (v.request r)) := by
  refine (Agree.of_eq_map (Pipeline.assemble_retext v r.pipeline r.query)).bind fun p p' hp => ?_
  subst hp
  have hshape : Agree Eq (r.query.shape p c.settings.defaultPageSize)
      ((v.query r.query).shape (p.retext v.text) c.settings.defaultPageSize) := by
    rw [Query.shape_retext]
    exact .refl (fun _ => rfl) _
  have hstack : Agree Eq (r.query.stackColumn p.anchor) ((v.query r.query).stackColumn (p.retext v.text).anchor) :=
    .refl (fun _ => rfl) _
  have hruns := (c.scope r p).agree_runTerms v hrules
  rw [← c.scope_request v r p] at hruns
  refine hshape.bind fun shape shape' hs => hstack.bind fun stack stack' ht => hruns.bind fun runs runs' hr => ?_
  obtain ⟨terms, warnings⟩ := runs
  obtain ⟨terms', warnings'⟩ := runs'
  obtain ⟨hstart, hdemand⟩ := StartTime.alike_clause v.text p.anchor p.start
  have hfirst := c.alike_first v r.query p.anchor hdemand hr
  have hstages := p.agree_addStages v hr.conditions
    (show StageProgress.Alike ⟨_, none, [], []⟩ ⟨_, none, [], []⟩ from ⟨hfirst, rfl, rfl, rfl⟩)
  refine Agree.bind hstages fun progress progress' hprogress => ?_
  obtain ⟨hd, hc⟩ := (c.scope r p).alike_compose v hrules hprogress.draft
  rw [← c.scope_request v r p] at hd hc
  refine Agree.bind hc fun conditions conditions' hconds => .ok ?_
  exact {
    stages := List.length_map _
    shape := hs.symm
    layers := by
      have hall : conditions' ++ progress'.predicates = conditions ++ progress.predicates := by
        rw [hconds, hprogress.predicates]
      rw [Layers.mk.injEq]
      exact ⟨rfl, rfl, congrArg Registry.tokens hd.joins, hall, hstart, hprogress.columns, rfl, ht.symm, rfl⟩
    names := hd.names }

/-- No value that users hand in reaches the text: under new values a request compiles where it does, and then to the same
text, with the same names to bind in the same order. -/
theorem agree_compile_request (settings : CompilerSettings) (v : Revaluation) (r : Request) :
    Agree (fun q q' => q'.sql = q.sql ∧ q'.countSql = q.countSql ∧ q'.bindings.keys = q.bindings.keys)
      (compile ⟨settings, .criteria⟩ r) (compile ⟨settings, .criteria⟩ (v.request r)) :=
  (agree_plan v ⟨settings, .criteria⟩ r rfl).map fun _ _ h =>
    ⟨congrArg text h.tokens, congrArg (Option.map text) h.countTokens, h.names⟩

end Compiler

end LeadTime
