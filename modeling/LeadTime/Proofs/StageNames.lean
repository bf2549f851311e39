import LeadTime.Proofs.IntegrationScope
import LeadTime.Proofs.StageEvent.Carried
import Mathlib

/-! Names of stages over a whole compilation. No name that a stage binds is written a second time, by that stage, by
another, or by any other step; so each is bound to what the stage's event or its filter carries. -/
namespace LeadTime

namespace Placeholder

theorem not_stageOnly_of_wide {name : String} (h : name ∈ wide) : ¬ StageOnly name := fun own => own.wide h

theorem not_stageOnly_of_fit {r : Restriction} {tableAlias name : String} (ha : tableAlias ∈ filteredAliases)
    (h : r.Fit tableAlias) (hn : name ∈ r.bindings.keys) : ¬ StageOnly name := by
  obtain ⟨rest, hrest⟩ := h.named name hn
  exact fun own => own.filtered tableAlias ha rest hrest

end Placeholder

open Placeholder (StageOnly not_stageOnly_of_wide not_stageOnly_of_fit)

namespace StageEvent

variable {ctx : EventContext} {name : String} {stage : Nat} {event : StageEvent} {clause : StageClause}

theorem names_clause (h : event.clause ctx name stage = .ok clause) :
    clause.names = (StageName.names event.carried).map (StageName.text stage) := by
  rw [StageClause.names, bindings_clause h, StageName.bindings, StageName.names, List.map_map, List.map_map]
  rfl

theorem nodup_names_clause (h : event.clause ctx name stage = .ok clause) : clause.names.Nodup := by
  rw [names_clause h]
  exact event.within_carried.nodup.map (StageName.text_injective stage)

theorem stageOnly_of_mem_names (h : event.clause ctx name stage = .ok clause) : ∀ n ∈ clause.names, StageOnly n := by
  rw [names_clause h]
  intro n hn
  obtain ⟨carried, hc, rfl⟩ := List.mem_map.1 hn
  have hrank := (event.within_carried.ranks carried hc).2
  refine StageName.stageOnly_text stage ?_ ?_ <;> rintro rfl <;> simp [StageName.rank] at hrank

theorem disjoint_names {ctx' : EventContext} {name' : String} {stage' : Nat} {event' : StageEvent}
    {clause' : StageClause} (h : event.clause ctx name stage = .ok clause)
    (h' : event'.clause ctx' name' stage' = .ok clause') (hne : stage ≠ stage') :
    clause.names.Disjoint clause'.names := by
  rw [names_clause h, names_clause h']
  intro n hn hn'
  obtain ⟨a, -, rfl⟩ := List.mem_map.1 hn
  obtain ⟨b, -, hb⟩ := List.mem_map.1 hn'
  exact hne (StageName.text_inj.1 hb).1.symm

end StageEvent

namespace Scope

variable {s : Scope}

theorem not_stageOnly_of_mem_endTimeClauses {clause : ScopeClause} (h : clause ∈ s.endTimeClauses) :
    ∀ n ∈ clause.names, ¬ StageOnly n := by
  simp only [endTimeClauses] at h
  split at h
  · rename_i stage range _ _
    intro n hn own
    rcases List.mem_pair.1 h with rfl | rfl
    · cases hs : range.start with
      | none => simp [hs, whenSome, ScopeClause.names, nothing, Demand.none] at hn
      | some instant => exact (own.ended stage).1 (by simpa [hs, whenSome, ScopeClause.names, endBound] using hn)
    · cases hs : range.stop with
      | none => simp [hs, whenSome, ScopeClause.names, nothing, Demand.none] at hn
      | some instant => exact (own.ended stage).2 (by simpa [hs, whenSome, ScopeClause.names, endBound] using hn)
  · simp at h

theorem not_stageOnly_of_mem_ownClauses {stack clause : ScopeClause} (hs : s.stackClause = .ok stack)
    (h : clause ∈ s.ownClauses stack) : ∀ n ∈ clause.names, ¬ StageOnly n := by
  have hwide {c : ScopeClause} (hc : ∀ n ∈ c.names, n ∈ Placeholder.wide) : ∀ n ∈ c.names, ¬ StageOnly n :=
    fun n hn => not_stageOnly_of_wide (hc n hn)
  have hnothing : ∀ n ∈ nothing.names, n ∈ Placeholder.wide := by simp [ScopeClause.names, nothing, Demand.none]
  rcases List.mem_append.1 h with h | h
  · refine hwide ?_
    simp only [List.mem_cons, List.not_mem_nil, or_false] at h
    rcases h with rfl | rfl | rfl | rfl
    · unfold activePart
      cases s.issues.bind (·.isActive) with
      | none => exact hnothing
      | some value => simp +decide [whenSome, activeClause, ScopeClause.names]
    · rcases s.sprintPart_cases with hp | ⟨-, states, hp⟩ <;> rw [hp]
      · exact hnothing
      · simp +decide [sprintsOf, ScopeClause.names]
    · rcases stackClause_eq_ok hs with rfl | ⟨kind, rfl⟩
      · exact hnothing
      · simp +decide [stackPart, ScopeClause.names]
    · unfold trendClause
      split
      · exact hnothing
      · simp +decide [ScopeClause.names]
  · exact not_stageOnly_of_mem_endTimeClauses h

theorem not_stageOnly_of_mem_clauses (hrules : s.rules = .criteria) {clauses : List ScopeClause}
    (h : s.clauses = clauses.map .ok) {clause : ScopeClause} (hc : clause ∈ clauses) :
    ∀ n ∈ clause.names, ¬ StageOnly n := by
  obtain ⟨entities, stack, -, he, hs, rfl⟩ := clauses_eq_ok h
  rw [List.cons_append, List.mem_cons, List.mem_append] at hc
  intro n hn
  rcases hc with rfl | hc | hc
  · refine not_stageOnly_of_wide ?_
    have hname : n = s.anchorPlaceholder := List.mem_singleton.1 hn
    rw [hname, anchorPlaceholder]
    split <;> decide
  · rcases mem_entityClauses (he ▸ List.mem_map_of_mem hc) with rfl | ⟨j, u, r, hr, -, rfl⟩
    · cases hn
    · have ha : j.tableAlias ∈ Placeholder.filteredAliases := by
        rcases hr with ⟨rfl, -⟩ | ⟨rfl, -⟩ | ⟨rfl, -⟩ <;> decide
      exact not_stageOnly_of_fit ha (hr.fit hrules) hn
  · exact not_stageOnly_of_mem_ownClauses hs hc n hn

end Scope

namespace Compilation

section Added

variable {c : Compiler} {r : Request} (k : Compilation c r)

/-- The first `n` stages were added with these events and clauses, one after the other. -/
structure Adds (added : List (StageEvent × StageClause)) (n : Nat) (s : StageProgress) : Prop where
  length : added.length = n
  clause : ∀ i event clause, added[i]? = some (event, clause) → ∃ stage previousCi,
    k.pipeline.stages[i]? = some stage ∧ StageEvent.ofStage stage = .ok event ∧
      event.clause (k.eventContext previousCi) stage.name i = .ok clause
  bindings : s.draft.bindings = k.first.draft.bindings.insertAll (added.flatMap (·.2.demand.bindings))

theorem exists_adds : ∃ added, k.Adds added k.pipeline.stages.length k.progress := by
  refine k.induction (P := fun n s => ∃ added, k.Adds added n s) ⟨[], rfl, by simp, rfl⟩ ?_
  rintro n s stage event clause hst he hc - ⟨added, hadded⟩
  refine ⟨added ++ [(event, clause)], by simp [hadded.length], fun i event' clause' hi => ?_, ?_⟩
  · rw [List.getElem?_append] at hi
    split at hi
    · exact hadded.clause i event' clause' hi
    · rename_i hlt
      obtain ⟨h0, hpair⟩ := List.getElem?_eq_some_iff.1 hi
      have hin : i = n := by
        rw [hadded.length] at hlt h0
        simp at h0
        omega
      simp only [List.getElem_singleton, Prod.mk.injEq] at hpair
      obtain ⟨rfl, rfl⟩ := hpair
      exact hin ▸ ⟨stage, s.previousCi, hst, he, hc⟩
  · rw [List.flatMap_append, List.flatMap_singleton, KeyMap.insertAll_append, ← hadded.bindings]
    rfl

/-- All that is written to the bindings, in its order, but for the integrations of joined entities. -/
def written (added : List (StageEvent × StageClause)) : List (String × ParamValue) :=
  k.start.demand.bindings ++ k.runTerms.bindings ++ added.flatMap (·.2.demand.bindings) ++
    k.clauses.flatMap (·.demand.bindings)

def writtenNames (added : List (StageEvent × StageClause)) : List String :=
  (k.written added).map Prod.fst ++ k.scopedEntities.map (·.2.1)

variable {k} {added : List (StageEvent × StageClause)}

theorem Adds.bindings_eq {n : Nat} (h : k.Adds added n k.progress) :
    k.bindings = Scope.bindIds (KeyMap.empty.insertAll (k.written added)) k.scopedEntities := by
  rw [Compilation.bindings, met, Draft.bindings_meetAll, h.bindings, bindings_first, written]
  simp only [KeyMap.insertAll_append]

theorem Adds.nodup {n : Nat} {s : StageProgress} (h : k.Adds added n s) : (added.flatMap (·.2.names)).Nodup := by
  rw [List.nodup_flatMap]
  constructor
  · intro pair hp
    obtain ⟨i, hi⟩ := List.getElem?_of_mem hp
    obtain ⟨stage, ci, -, -, hc⟩ := h.clause i pair.1 pair.2 hi
    exact StageEvent.nodup_names_clause hc
  · rw [List.pairwise_iff_getElem]
    intro i j hi hj hij
    obtain ⟨stage, ci, -, -, hc⟩ := h.clause i _ _ (List.getElem?_eq_getElem hi)
    obtain ⟨stage', ci', -, -, hc'⟩ := h.clause j _ _ (List.getElem?_eq_getElem hj)
    exact StageEvent.disjoint_names hc hc' hij.ne

/-- The names of stages collide with none: each is written once and is of no other step, and has the value that the
stage's event carries. -/
structure Apart (k : Compilation c r) (added : List (StageEvent × StageClause)) : Prop where
  bindings : k.bindings = Scope.bindIds (KeyMap.empty.insertAll (k.written added)) k.scopedEntities
  /-- A stage binds what its event carries, under names that tell the stage. -/
  carried : ∀ (i : Nat) (event : StageEvent) (clause : StageClause), added[i]? = some (event, clause) →
    clause.demand.bindings = StageName.bindings i event.carried
  once : ∀ pair ∈ added, ∀ name ∈ pair.2.names, (k.writtenNames added).count name = 1
  own : ∀ pair ∈ added, ∀ name ∈ pair.2.names, StageOnly name
  bound : ∀ (i : Nat) (event : StageEvent) (clause : StageClause), added[i]? = some (event, clause) →
    ∀ carried ∈ event.carried, k.plan.query.bindings.get? (carried.1.text i) = some carried.2

end Added

section Criteria

variable {settings : CompilerSettings} {r : Request} {k : Compilation ⟨settings, .criteria⟩ r}
  {added : List (StageEvent × StageClause)} {name : String}

theorem not_stageOnly_of_mem_start (h : name ∈ k.start.demand.bindings.map Prod.fst) : ¬ StageOnly name := by
  rw [k.spec_start.named name h]
  exact not_stageOnly_of_wide (by decide)

theorem not_stageOnly_of_mem_runTerms (h : name ∈ k.runTerms.bindings.map Prod.fst) : ¬ StageOnly name := by
  rcases Scope.runTerms_eq_ok k.ranOver with hr | ⟨-, f, res, -, hr, hterms⟩
  · rw [hr] at h
    cases h
  · have fit : res.Fit Scope.runAlias := Restriction.fit_ofCriteria (by decide) (by decide) hr
    rw [hterms] at h
    exact not_stageOnly_of_fit (by decide) fit h

theorem not_stageOnly_of_mem_clauses (h : name ∈ (k.clauses.flatMap (·.demand.bindings)).map Prod.fst) :
    ¬ StageOnly name := by
  rw [List.map_flatMap, List.mem_flatMap] at h
  obtain ⟨clause, hc, hn⟩ := h
  exact Scope.not_stageOnly_of_mem_clauses rfl k.posed hc name hn

theorem not_stageOnly_of_mem_scopedEntities (h : name ∈ k.scopedEntities.map (·.2.1)) : ¬ StageOnly name := by
  obtain ⟨entity, he, rfl⟩ := List.mem_map.1 h
  have hwide : ∀ entity ∈ k.scope.optionalEntities, entity.2.1 ∈ Placeholder.wide := by
    have hissue : Placeholder.issueIntegrationIds ∈ Placeholder.wide := by decide
    have hcode : Placeholder.codeIntegrationIds ∈ Placeholder.wide := by decide
    simp [Scope.optionalEntities, hissue, hcode]
  exact not_stageOnly_of_wide (hwide entity (List.mem_filter.1 he).1)

theorem Adds.count_eq_one {n : Nat} (h : k.Adds added n k.progress) {pair : StageEvent × StageClause}
    (hp : pair ∈ added) (hn : name ∈ pair.2.names) (own : StageOnly name) : (k.writtenNames added).count name = 1 := by
  have hstages : (added.flatMap (·.2.names)).count name = 1 :=
    List.count_eq_one_of_mem h.nodup (List.mem_flatMap.2 ⟨pair, hp, hn⟩)
  have hother {names : List String} (hnames : ∀ name ∈ names, ¬ StageOnly name) : names.count name = 0 :=
    List.count_eq_zero.2 fun hm => hnames name hm own
  have hnames : k.writtenNames added = k.start.demand.bindings.map Prod.fst ++ k.runTerms.bindings.map Prod.fst ++
      added.flatMap (·.2.names) ++ (k.clauses.flatMap (·.demand.bindings)).map Prod.fst ++
        k.scopedEntities.map (·.2.1) := by
    simp only [writtenNames, written, List.map_append, List.map_flatMap, StageClause.names]
  rw [hnames, List.count_append, List.count_append, List.count_append, List.count_append, hstages,
    hother fun _ => not_stageOnly_of_mem_start, hother fun _ => not_stageOnly_of_mem_runTerms,
    hother fun _ => not_stageOnly_of_mem_clauses, hother fun _ => not_stageOnly_of_mem_scopedEntities]

theorem Adds.apart {n : Nat} (h : k.Adds added n k.progress) : k.Apart added := by
  have hown : ∀ pair ∈ added, ∀ name ∈ pair.2.names, StageOnly name := by
    intro pair hp name hn
    obtain ⟨i, hi⟩ := List.getElem?_of_mem hp
    obtain ⟨stage, ci, -, -, hc⟩ := h.clause i pair.1 pair.2 hi
    exact StageEvent.stageOnly_of_mem_names hc name hn
  have hcarried : ∀ i event clause, added[i]? = some (event, clause) →
      clause.demand.bindings = StageName.bindings i event.carried := by
    intro i event clause hi
    obtain ⟨stage, ci, -, -, hc⟩ := h.clause i event clause hi
    exact StageEvent.bindings_clause hc
  refine ⟨h.bindings_eq, hcarried, fun pair hp name hn => h.count_eq_one hp hn (hown pair hp name hn), hown, ?_⟩
  intro i event clause hi carried hm
  have hp : (event, clause) ∈ added := List.mem_of_getElem? hi
  have hpair : (carried.1.text i, carried.2) ∈ clause.demand.bindings := by
    rw [hcarried i event clause hi]
    exact List.mem_map_of_mem hm
  have hn : carried.1.text i ∈ clause.names := List.mem_map_of_mem (f := Prod.fst) hpair
  have honce := h.count_eq_one hp hn (hown _ hp _ hn)
  have hwritten : (carried.1.text i, carried.2) ∈ k.written added := by
    rw [written, List.mem_append, List.mem_append]
    exact Or.inl (Or.inr (List.mem_flatMap.2 ⟨_, hp, hpair⟩))
  have hcount : ((k.written added).map Prod.fst).count (carried.1.text i) = 1 := by
    have hpos : 0 < ((k.written added).map Prod.fst).count (carried.1.text i) :=
      List.count_pos_iff.2 (List.mem_map_of_mem (f := Prod.fst) hwritten)
    rw [writtenNames, List.count_append] at honce
    omega
  have hquery : k.plan.query.bindings = k.bindings := rfl
  rw [hquery, h.bindings_eq]
  exact Scope.get?_bindIds_of_bound (KeyMap.get?_insertAll_of_count hwritten hcount) _

end Criteria

end Compilation

/-- Where compiling with criteria succeeds, names of stages collide with no name: each is written once in the whole
compilation, and is bound in the query to what the stage's event or its filter carries. -/
theorem Compiler.apart_of_compile {settings : CompilerSettings} {r : Request} {q : CompiledQuery}
    (h : (⟨settings, .criteria⟩ : Compiler).compile r = .ok q) :
    ∃ (k : Compilation ⟨settings, .criteria⟩ r) (added : List (StageEvent × StageClause)),
      (⟨settings, .criteria⟩ : Compiler).plan r = .ok k.plan ∧ k.plan.query = q ∧
        k.Adds added k.pipeline.stages.length k.progress ∧ k.Apart added := by
  obtain ⟨p, hp, rfl⟩ := Except.map_eq_ok.1 h
  obtain ⟨k, rfl⟩ := Compilation.of_plan hp
  obtain ⟨added, hadded⟩ := k.exists_adds
  exact ⟨k, added, hp, rfl, hadded, hadded.apart⟩

theorem Compiler.apart_delivery : ∃ q, (⟨.standard, .criteria⟩ : Compiler).compile .delivery = .ok q ∧
    ∃ (k : Compilation ⟨.standard, .criteria⟩ .delivery) (added : List (StageEvent × StageClause)),
      (⟨.standard, .criteria⟩ : Compiler).plan .delivery = .ok k.plan ∧ k.plan.query = q ∧
        k.Adds added k.pipeline.stages.length k.progress ∧ k.Apart added := by
  obtain ⟨q, hq⟩ := exists_compile_eq_ok Request.isOk_plan_delivery
  exact ⟨q, hq, apart_of_compile hq⟩

end LeadTime
