import LeadTime.Proofs.Registry.Closure
import LeadTime.Proofs.Registry.Placeholders
import LeadTime.Proofs.StageEvent.Terms
import Mathlib

/-! What is true of a stage's clause, whatever its event: it binds what it writes, its joins are its own, and it reads
only from joins that it asks for. `StageEvent.spec_clause` says so of every kind. -/
namespace LeadTime

open Sql

def Join.stage? : Join → Option Nat
  | .label n | .jobRun n | .genericEvent n => some n
  | _ => none

theorem Join.stage?_of_mem_dependencies {j d : Join} (h : d ∈ j.dependencies) : d.stage? = none ∧ d ≠ .sprint := by
  cases j <;> simp [dependencies] at h <;> rcases h with rfl | rfl <;> simp [stage?]

theorem Join.ne_anchor_of_stage {j : Join} {n : Nat} (h : j.stage? = some n) (a : Anchor) : j ≠ a.join := by
  rintro rfl
  rcases Registry.anchor_join a with ha | ha <;> simp [ha, stage?] at h

theorem Join.isSupplied_of_stage {j : Join} {n : Nat} (h : j.stage? = some n) : j.isSupplied = true := by
  cases j <;> simp [stage?] at h <;> rfl

theorem Join.dependency_own {j d : Join} (h : j.dependency? = some d) :
    d.stage? = none ∧ d ≠ .sprint ∧ d.isSupplied = false := by
  cases j <;> simp only [dependency?, Option.some.injEq, reduceCtorEq] at h <;> subst h <;>
    simp [stage?, isSupplied]

namespace Registry

variable {r : Registry} {ctx : EventContext} {stage : Nat} {req : JoinRequest} {reqs : List JoinRequest}

/-- The registry is as the stages before this one leave it: joins of stages are of earlier ones, the sprints are not
joined yet, and the runs of the last CI stage are. -/
structure Ready (r : Registry) (ctx : EventContext) (stage : Nat) : Prop where
  context : r.context = ctx.joins
  earlier : ∀ j n, j.stage? = some n → r.holds j = true → n < stage
  sprint : r.holds .sprint = false
  previousCi : ∀ ci, ctx.previousCi = some ci → r.holds (.jobRun ci) = true

theorem Ready.notJoined (h : r.Ready ctx stage) {j : Join} (hj : j.stage? = some stage) :
    r.isJoined j = false := by
  rw [Bool.eq_false_iff]
  intro hh
  have hheld := holds_of_isJoined hh (Join.ne_anchor_of_stage hj _)
  exact absurd (h.earlier j stage hj hheld) (lt_irrefl stage)

theorem holds_requestAll_of_holds {j : Join} (h : r.holds j = true) (hj : j ≠ r.context.anchor.join) :
    (r.requestAll reqs).holds j = true :=
  holds_of_isJoined (isJoined_requestAll (isJoined_iff.2 (Or.inr h))) (by rwa [context_requestAll])

theorem Ready.request (h : r.Ready ctx stage) (hs : req.join.stage? = none) (hn : req.join ≠ .sprint) :
    (r.request req).Ready ctx stage where
  context := by rw [context_request, h.context]
  earlier j n hj hh := by
    rcases holds_request hh with hh | rfl | hd
    · exact h.earlier j n hj hh
    · simp [hs] at hj
    · simp [(Join.stage?_of_mem_dependencies hd).1] at hj
  sprint := by
    rw [Bool.eq_false_iff]
    intro hh
    rcases holds_request hh with hh | he | hd
    · rw [h.sprint] at hh
      cases hh
    · exact hn he.symm
    · exact (Join.stage?_of_mem_dependencies hd).2 rfl
  previousCi ci hci := by
    have hheld : (r.requestAll [req]).holds (.jobRun ci) = true :=
      holds_requestAll_of_holds (h.previousCi ci hci) (Join.ne_anchor_of_stage rfl _)
    exact hheld

theorem landAll_conditions {j : Join} {cs : List Expr} (h : r.holds j = true) :
    r.LandAll (cs.map (.condition j)) := by
  induction cs generalizing r with
  | nil => trivial
  | cons c rest ih => exact ⟨h, ih (by simpa [Registry.request] using h)⟩

theorem closeAll_conditions {j : Join} {cs : List Expr} (h : ∀ c ∈ cs, c.tables ⊆ [j.tableAlias]) :
    r.CloseAll (cs.map (.condition j)) := by
  induction cs generalizing r with
  | nil => trivial
  | cons c rest ih =>
    rw [List.forall_mem_cons] at h
    exact ⟨h.1, ih h.2⟩

end Registry

namespace StageClause

def placeholders (c : StageClause) : List String :=
  c.timestamp.placeholders ++ c.predicates.flatMap Expr.placeholders ++
    c.demand.requests.flatMap JoinRequest.placeholders

def names (c : StageClause) : List String := c.demand.bindings.map Prod.fst

structure Legible (c : StageClause) : Prop where
  timestamp : c.timestamp.Legible
  predicates : ∀ p ∈ c.predicates, p.Legible
  requests : ∀ req ∈ c.demand.requests, req.Legible

def Asks (c : StageClause) (j : Join) : Prop :=
  .held j ∈ c.demand.requests ∨ ∃ line, .supplied j line ∈ c.demand.requests

/-- What every clause of a stage does; `isRun` tells the clauses of job runs, which alone may write the predicates
on job runs. -/
structure Spec (ctx : EventContext) (stage : Nat) (isRun : Bool) (c : StageClause) : Prop where
  written : ∀ name, name ∈ c.placeholders ↔
    name ∈ c.names ∨ isRun = true ∧ name ∈ (StageEvent.Clause.runPredicates ctx stage).placeholders
  named : ∀ name ∈ c.names, Placeholder.OfStage name
  legible : NoColon ctx.joins.schema → (∀ p ∈ ctx.runPredicates, p.Legible) → c.Legible
  joins : ∀ req ∈ c.demand.requests, req.join ≠ .sprint ∧ ∀ n, req.join.stage? = some n → n = stage
  proper : ∀ req ∈ c.demand.requests, req.Proper
  lands : ∀ r : Registry, r.Ready ctx stage → r.LandAll c.demand.requests
  closes : (∀ p ∈ ctx.runPredicates, p.tables ⊆ ["jr"]) →
    ∀ r : Registry, r.Ready ctx stage → r.CloseAll c.demand.requests
  reads : ∀ e ∈ c.timestamp :: c.predicates, ∀ name ∈ e.tables, ∃ j, c.Asks j ∧ name = j.tableAlias
  run : isRun = true → c.Asks (.jobRun stage)

end StageClause

namespace StageEvent.Clause

variable {ctx : EventContext} {stage : Nat}

attribute [local simp] ofTime StageClause.placeholders StageClause.names StageClause.Asks JoinRequest.placeholders
  JoinRequest.join Registry.LandAll Registry.CloseAll JoinRequest.Lands JoinRequest.Closed

theorem spec_ofHeld {timestamp : Expr} {predicates : List Expr} {bindings : List (String × ParamValue)} {j : Join}
    (fit : Terms.Fit [j.tableAlias] ⟨timestamp :: predicates, bindings⟩) (hj : j.isSupplied = false)
    (aggregate : Aggregate) :
    StageClause.Spec ctx stage false ⟨timestamp, aggregate, predicates, ⟨[.held j], bindings⟩⟩ where
  written name := by simpa [Terms.placeholders, Terms.names] using fit.balanced name
  named := fit.named
  legible _ _ := ⟨fit.legible _ List.mem_cons_self, fun p hp => fit.legible p (List.mem_cons_of_mem _ hp),
    by simp [JoinRequest.Legible]⟩
  joins := by cases j <;> simp [Join.isSupplied] at hj <;> simp [Join.stage?]
  proper := List.forall_mem_singleton.2 hj
  lands := by simp
  closes := by simp [hj]
  reads e he name hn := ⟨j, Or.inl List.mem_cons_self, List.mem_singleton.1 (fit.reads e he hn)⟩
  run := by simp

theorem spec_ofRestricted {timestamp : Expr} {terms : Terms} {j : Join} (time : Terms.Fit [j.tableAlias] ⟨[timestamp], []⟩)
    (fit : terms.Fit [j.tableAlias]) (hj : j.isSupplied = false) (hanchor : ctx.joins.anchor.join ≠ j)
    (aggregate : Aggregate) :
    StageClause.Spec ctx stage false
      ⟨timestamp, aggregate, [], ⟨.held j :: terms.conditions.map (.condition j), terms.bindings⟩⟩ where
  written name := by
    have htime : timestamp.placeholders = [] := by
      rw [List.eq_nil_iff_forall_not_mem]
      intro name hn
      simpa [Terms.placeholders, Terms.names] using (time.balanced name).1 (by simpa [Terms.placeholders] using hn)
    have hterms := fit.balanced name
    simp only [Terms.placeholders, Terms.names] at hterms
    simp [htime, List.flatMap_map, hterms]
  named := fit.named
  legible _ _ := ⟨time.legible _ List.mem_cons_self, by simp, by
    rw [List.forall_mem_cons]
    refine ⟨trivial, fun req hreq => ?_⟩
    obtain ⟨c, hm, rfl⟩ := List.mem_map.1 hreq
    exact fit.legible c hm⟩
  joins := by cases j <;> simp [Join.isSupplied] at hj <;> simp [Join.stage?]
  proper := by simp [JoinRequest.Proper, hj]
  lands r hr := by
    have hne : j ≠ (r.require j).context.anchor.join := by
      have hctx : (r.require j).context = r.context := Registry.context_request (.held j)
      rw [hctx, hr.context]
      exact hanchor.symm
    exact ⟨trivial, Registry.landAll_conditions (Registry.holds_of_isJoined Registry.isJoined_require hne)⟩
  closes _ r _ := ⟨hj, Registry.closeAll_conditions fit.reads⟩
  reads e he name hn := ⟨j, Or.inl List.mem_cons_self, List.mem_singleton.1 (time.reads e he hn)⟩
  run := by simp

theorem spec_ofTime {timestamp : Expr} {j : Join} (hp : timestamp.placeholders = []) (hl : timestamp.Legible)
    (ht : timestamp.tables ⊆ [j.tableAlias]) (hj : j.isSupplied = false) (aggregate : Aggregate) :
    StageClause.Spec ctx stage false ⟨timestamp, aggregate, [], ⟨[.held j], []⟩⟩ :=
  spec_ofHeld (.silent hp hl ht) hj aggregate

theorem spec_ofStatus (statuses : List String) : (ofStatus ctx stage statuses).Spec ctx stage false := by
  have hv := Placeholder.ofStage_value stage
  unfold ofStatus
  extract_lets ims value time
  have hp : ∀ name, name ∈ time.placeholders ↔ name = value := by
    intro name
    simp only [time]
    split <;> simp [ims]
  have hl : time.Legible := by
    simp only [time]
    split <;> simp +decide [ims, value, hv.isName]
  have ht : time.tables ⊆ ["ims"] := by
    simp only [time]
    split <;> simp [ims]
  refine spec_ofHeld (j := .statusHistory) ⟨fun name => ?_, ?_, ?_, ?_⟩ rfl .min
  · simp [Terms.placeholders, Terms.names, hp]
  · simpa using hl
  · exact List.forall_mem_singleton.2 ht
  · simpa [Terms.names] using hv

theorem spec_ofPullRequest {column : String} (hc : NoColon column) (aggregate : Aggregate)
    (branches : BranchFilter) : (ofPullRequest ctx stage column aggregate branches).Spec ctx stage false := by
  have fit : (branches.terms stage).Fit [Join.pullRequest.tableAlias] := branches.fit_terms stage
  have time : Terms.Fit [Join.pullRequest.tableAlias] ⟨[.column "pr" column], []⟩ :=
    .silent (by simp) ⟨by decide, hc⟩ (by simp [Join.tableAlias])
  cases hi : ctx.joins.anchor.isIssue with
  | true =>
    have hanchor : ctx.joins.anchor.join ≠ .pullRequest := by simp [Anchor.join, hi]
    simpa [ofPullRequest, hi] using spec_ofRestricted time fit rfl hanchor aggregate
  | false => simpa [ofPullRequest, hi] using spec_ofHeld (time.append fit) rfl aggregate

theorem spec_ofOwnLine {j d : Join} (hj : j.stage? = some stage) (hd : j.dependency? = some d)
    {column table : String} (hcolumn : NoColon column) (htable : NoColon table) {on : List Expr} (hon : on ≠ [])
    {bindings : List (String × ParamValue)}
    (hwritten : ∀ name, name ∈ on.flatMap Expr.placeholders ↔ name ∈ bindings.map Prod.fst)
    (hnamed : ∀ name ∈ bindings.map Prod.fst, Placeholder.OfStage name)
    (hlegible : ∀ c ∈ on, c.Legible) (hreads : ∀ c ∈ on, c.tables ⊆ [j.tableAlias, d.tableAlias]) :
    (ofTime (.column j.tableAlias column)
      [.held d, .supplied j (.leftTable (ctx.joins.table table) j.tableAlias on)] bindings).Spec ctx stage false := by
  obtain ⟨hds, hdn, hdw⟩ := Join.dependency_own hd
  have hjn : j ≠ .sprint := by rintro rfl; cases hj
  exact {
    written := by
      intro name
      have := hwritten name
      simp_all [JoinLine.leftTable]
    named := hnamed
    legible := fun hs _ => ⟨⟨j.noColon_tableAlias, hcolumn⟩, by simp, by
      simp only [ofTime, List.forall_mem_cons, List.not_mem_nil, false_imp_iff, implies_true, and_true]
      exact ⟨trivial, ⟨hs, htable⟩, j.noColon_tableAlias, hlegible⟩⟩
    joins := by simp [hds, hdn, hj, hjn]
    proper := by
      simp only [ofTime, List.forall_mem_cons, List.not_mem_nil, false_imp_iff, implies_true, and_true]
      exact ⟨hdw, Join.isSupplied_of_stage hj, rfl, hon⟩
    lands := fun r hr => by
      have hd : (r.request (.held d)).Ready ctx stage := hr.request hds hdn
      exact ⟨trivial, hd.notJoined hj, trivial⟩
    closes := fun _ r _ => by
      refine ⟨hdw, ⟨Join.isSupplied_of_stage hj, rfl, hon, trivial, fun name hn => ?_⟩, trivial⟩
      obtain ⟨c, hc, hn⟩ := List.mem_flatMap.1 hn
      rcases List.mem_pair.1 (hreads c hc hn) with rfl | rfl
      · exact Or.inl rfl
      · exact Or.inr (Or.inl ⟨d, hd, rfl⟩)
    reads := by
      intro e he name hn
      simp only [ofTime, List.mem_singleton] at he
      subst he
      exact ⟨j, Or.inr ⟨_, List.mem_cons_of_mem _ List.mem_cons_self⟩, List.mem_singleton.1 hn⟩
    run := by simp }

theorem spec_ofLabel (labels : Option (List String)) : (ofLabel ctx stage labels).Spec ctx stage false := by
  have hv := Placeholder.ofStage_value stage
  have ha := (Join.label stage).noColon_tableAlias
  refine spec_ofOwnLine (j := .label stage) rfl rfl (by decide) (by decide) (by simp) ?_ ?_ ?_ ?_
  · cases labels <;> simp
  · cases labels <;> simp [hv]
  · cases labels <;> simp +decide [ha, hv.isName]
  · cases labels <;> simp [Join.tableAlias]

theorem spec_ofGenericEvent (types : List String) : (ofGenericEvent ctx stage types).Spec ctx stage false := by
  have hv := Placeholder.ofStage_value stage
  have ha := (Join.genericEvent stage).noColon_tableAlias
  refine spec_ofOwnLine (j := .genericEvent stage) rfl rfl (by decide) (by decide)
    (by simp [JoinContext.eventLink]) ?_ ?_ ?_ ?_
  · cases ht : types.isEmpty <;> simp [JoinContext.eventLink]
  · cases ht : types.isEmpty <;> simp [hv]
  · cases ht : types.isEmpty <;> simp +decide [JoinContext.eventLink, ha, hv.isName]
  · cases ht : types.isEmpty <;> simp [JoinContext.eventLink, Join.tableAlias]

theorem spec_ofReview {states : List String} (hs : ∀ s ∈ states, NoColon s) (aggregate : Aggregate) :
    (ofReview states aggregate).Spec ctx stage false :=
  spec_ofTime (j := .review) (by simp) (by simpa +decide using hs) (by simp [Join.tableAlias]) rfl aggregate

/-- What a select of runs writes, binds and reads: it binds its placeholders but for those of the predicates on
job runs, reads back, and is closed. -/
structure RunSource (ctx : EventContext) (stage : Nat) (source : Source)
    (bindings : List (String × ParamValue)) : Prop where
  written : ∀ name, name ∈ Sql.placeholders source.tokens ↔
    name ∈ bindings.map Prod.fst ∨ name ∈ (runPredicates ctx stage).placeholders
  named : ∀ name ∈ bindings.map Prod.fst, Placeholder.OfStage name
  legible : NoColon ctx.joins.schema → (∀ p ∈ ctx.runPredicates, p.Legible) → source.Legible
  closed : (∀ p ∈ ctx.runPredicates, p.tables ⊆ ["jr"]) → source.Closed

theorem spec_ofRun {before : List JoinRequest} {source : Source} {link : String → Expr}
    {bindings : List (String × ParamValue)} (h : RunSource ctx stage source bindings)
    (hbefore : before = [] ∨ before = [.held .cicdMapping])
    (hplaceholders : ∀ run, (link run).placeholders = [])
    (hlegible : ∀ run, NoColon run → (link run).Legible)
    (hreads : ∀ r : Registry, r.Ready ctx stage → ∀ name ∈ (link (Join.jobRun stage).tableAlias).tables,
      name = (Join.jobRun stage).tableAlias ∨ name ∈ (r.requestAll before).below (.jobRun stage)) :
    (ofRun stage before source link bindings).Spec ctx stage true := by
  have halias := (Join.jobRun stage).noColon_tableAlias
  have hasks : (ofRun stage before source link bindings).Asks (.jobRun stage) :=
    Or.inr ⟨_, List.mem_append_right _ (List.mem_singleton_self _)⟩
  exact {
    written := by
      intro name
      have := h.written name
      rcases hbefore with rfl | rfl <;> simp_all [ofRun]
    named := h.named
    legible := fun hs hp => by
      refine ⟨⟨halias, by decide⟩, by simp [ofRun], fun req hreq => ?_⟩
      rcases List.mem_append.1 hreq with hreq | hreq
      · rcases hbefore with rfl | rfl
        · simp at hreq
        · rw [List.mem_singleton.1 hreq]
          trivial
      · rw [List.mem_singleton.1 hreq]
        exact ⟨h.legible hs hp, halias, List.forall_mem_singleton.2 (hlegible _ halias)⟩
    joins := by rcases hbefore with rfl | rfl <;> simp [ofRun, Join.stage?]
    proper := by
      rcases hbefore with rfl | rfl <;>
        simp [ofRun, JoinRequest.Proper, Join.isSupplied, JoinLine.introduced?, JoinLine.conditions]
    lands := fun r hr => by
      rcases hbefore with rfl | rfl
      · exact ⟨hr.notJoined rfl, trivial⟩
      · have hm : (r.request (.held .cicdMapping)).Ready ctx stage := hr.request rfl (by simp)
        exact ⟨trivial, hm.notJoined rfl, trivial⟩
    closes := fun hp r hr => by
      have suits : JoinLine.Suits (r.requestAll before) (.jobRun stage)
          (.join .left source (Join.jobRun stage).tableAlias [link (Join.jobRun stage).tableAlias]) :=
        ⟨rfl, by simp [JoinLine.conditions], h.closed hp, fun name hn =>
          (hreads r hr name (by simpa [JoinLine.tables, JoinLine.conditions] using hn)).imp_right Or.inr⟩
      rcases hbefore with rfl | rfl
      · exact ⟨⟨rfl, suits⟩, trivial⟩
      · exact ⟨rfl, ⟨rfl, suits⟩, trivial⟩
    reads := by
      intro e he name hn
      rw [List.mem_singleton.1 he] at hn
      exact ⟨.jobRun stage, hasks, List.mem_singleton.1 hn⟩
    run := fun _ => hasks }

theorem spec_ofMappedRun {source : Source} {bindings : List (String × ParamValue)}
    (h : RunSource ctx stage source bindings) : (ofMappedRun stage source bindings).Spec ctx stage true := by
  refine spec_ofRun h (Or.inr rfl) (by simp) (fun run hr => by simp +decide [hr]) fun r _ name hn => ?_
  simp only [Expr.same, Expr.equal, Expr.seen_binary, Expr.seen_column, View.see_tables, Token.table?, Option.toList_some,
    List.cons_append, List.nil_append, List.mem_pair] at hn
  rcases hn with rfl | rfl
  · exact Or.inl rfl
  · refine Or.inr (Registry.mem_below (d := .cicdMapping) Registry.isJoined_require ?_)
    simp [Join.ranksBefore, Join.rank]

section Selects

attribute [local simp] RunSelect.select RunSelect.items RunSelect.runs RunSelect.jobs RunSelect.params
  RunSelect.artifacts DeploySelect.select DeploySelect.side TableSelect.introduced

theorem placeholders_runSelect (s : RunSelect) (schema : String) :
    Sql.placeholders (s.select schema).tokens = s.conditions.flatMap Expr.placeholders := by
  obtain ⟨shape, withParams, conditions⟩ := s
  cases shape <;> cases withParams <;> simp

theorem legible_runSelect {s : RunSelect} {schema : String} (hs : NoColon schema)
    (h : ∀ c ∈ s.conditions, c.Legible) : (s.select schema).Legible := by
  obtain ⟨shape, withParams, conditions⟩ := s
  cases shape <;> cases withParams <;> simpa +decide [hs] using h

theorem closed_runSelect {s : RunSelect} (schema : String)
    (h : ∀ c ∈ s.conditions, c.tables ⊆ if s.withParams then ["jr", "jrp"] else ["jr"]) :
    (s.select schema).Closed := by
  obtain ⟨shape, withParams, conditions⟩ := s
  have hc : conditions.flatMap Expr.tables ⊆ if withParams then ["jr", "jrp"] else ["jr"] := by
    intro name hn
    obtain ⟨c, hm, hn⟩ := List.mem_flatMap.1 hn
    exact h c hm hn
  have hall : conditions.flatMap Expr.tables ⊆
      ((RunSelect.mk shape withParams conditions).select schema).introduced := by
    refine List.Subset.trans hc ?_
    cases shape <;> cases withParams <;> simp
  unfold TableSelect.Closed
  rw [tables, View.of_tableSelect View.skipsNames_tables]
  refine List.append_subset.2 ⟨?_, hall⟩
  cases shape <;> cases withParams <;> simp

theorem placeholders_deploySelect (s : DeploySelect) (schema : String) :
    Sql.placeholders (s.select schema).tokens = (s.deploy ++ s.build).flatMap Expr.placeholders := by
  simp

theorem legible_deploySelect {s : DeploySelect} {schema : String} (hs : NoColon schema)
    (hd : ∀ c ∈ s.deploy, c.Legible) (hb : ∀ c ∈ s.build, c.Legible) : (s.select schema).Legible := by
  simp +decide only [DeploySelect.select, DeploySelect.side, PairedSelect.Legible, TableSelect.Legible,
    RunSelect.items, RunSelect.runs, RunSelect.params]
  simp +decide [hs]
  exact ⟨hd, hb⟩

theorem closed_deploySelect {s : DeploySelect} (schema : String) (hd : ∀ c ∈ s.deploy, c.tables ⊆ ["jr", "jrp"])
    (hb : ∀ c ∈ s.build, c.tables ⊆ ["jr", "jrp"]) : (s.select schema).Closed := by
  have hside (items : List Projection) (conditions : List Expr)
      (hi : items.flatMap (fun i => Sql.tables i.tokens) ⊆ ["jr", "jrp"])
      (hc : ∀ c ∈ conditions, c.tables ⊆ ["jr", "jrp"]) : (DeploySelect.side schema items conditions).Closed := by
    have hall : conditions.flatMap Expr.tables ⊆ ["jr", "jrp"] := by
      intro name hn
      obtain ⟨c, hm, hn⟩ := List.mem_flatMap.1 hn
      exact hc c hm hn
    unfold TableSelect.Closed
    simpa [List.append_subset] using ⟨hi, hall⟩
  exact ⟨hside _ _ (by simp) hd, hside _ _ (by simp) hb, by simp, by simp⟩

end Selects

theorem mem_runPredicates {p : Expr} (h : p ∈ (runPredicates ctx stage).conditions) : p ∈ ctx.runPredicates := by
  simp only [runPredicates] at h
  split at h
  · exact h
  · simp at h

@[simp] theorem bindings_append_runPredicates (terms : Terms) :
    (terms ++ runPredicates ctx stage).bindings = terms.bindings := List.append_nil _

variable {runs : RunMatch} {terms : Terms}

theorem runSource_runSelect (fit : terms.Fit runs.aliases) (shape : RunShape) :
    RunSource ctx stage (runSelect ctx shape runs (terms ++ runPredicates ctx stage))
      (terms ++ runPredicates ctx stage).bindings where
  written name := by
    have hb : name ∈ terms.conditions.flatMap Expr.placeholders ↔ name ∈ terms.bindings.map Prod.fst :=
      fit.balanced name
    simp only [runSelect, View.of_source_select, placeholders_runSelect, bindings_append_runPredicates,
      Terms.conditions_append, List.flatMap_append, List.mem_append, hb]
    rfl
  named := by
    rw [bindings_append_runPredicates]
    exact fit.named
  legible hs hp := legible_runSelect hs fun c hc =>
    (List.mem_append.1 hc).elim (fit.legible c) fun h => hp c (mem_runPredicates h)
  closed hp := by
    have haliases : runs.aliases = if !runs.params.isEmpty then ["jr", "jrp"] else ["jr"] := by
      cases h : runs.params.isEmpty <;> simp [RunMatch.aliases, h]
    refine closed_runSelect _ fun c hc => ?_
    rw [← haliases]
    rcases List.mem_append.1 hc with hc | hc
    · exact fit.reads c hc
    · exact List.Subset.trans (hp c (mem_runPredicates hc)) runs.jr_subset_aliases

theorem runSource_deploySelect {own build : Terms} (hown : own.Fit ["jr", "jrp"]) (hbuild : build.Fit ["jr", "jrp"]) :
    RunSource ctx stage
      (.paired ((DeploySelect.mk (own ++ runPredicates ctx stage).conditions build.conditions).select ctx.joins.schema))
      ((own ++ runPredicates ctx stage).bindings ++ build.bindings) := by
  have hbindings : (own ++ runPredicates ctx stage).bindings ++ build.bindings = (own ++ build).bindings := by
    rw [bindings_append_runPredicates]
    rfl
  rw [hbindings]
  exact {
    written := by
      intro name
      have hb := (hown.append hbuild).balanced name
      rw [Terms.placeholders_append] at hb
      rw [← Terms.names, ← hb]
      simp only [View.of_source_paired, placeholders_deploySelect, Terms.conditions_append, List.flatMap_append,
        List.mem_append, Terms.placeholders]
      tauto
    named := (hown.append hbuild).named
    legible := fun hs hp => legible_deploySelect hs
      (fun c hc => (List.mem_append.1 hc).elim (hown.legible c) fun h => hp c (mem_runPredicates h))
      hbuild.legible
    closed := fun hp => closed_deploySelect _
      (fun c hc => (List.mem_append.1 hc).elim (hown.reads c) fun h =>
        List.Subset.trans (hp c (mem_runPredicates h)) (by simp))
      hbuild.reads }

theorem spec_ofRuns (shape : RunShape) {filter : Terms} (hf : filter.Fit ["jr"]) :
    (ofRuns ctx stage shape runs filter).Spec ctx stage true :=
  spec_ofMappedRun
    (runSource_runSelect ((runs.fit_terms stage 0).append (hf.mono runs.jr_subset_aliases)) shape)

theorem spec_ofCdRuns {ci : Nat} (hci : ctx.previousCi = some ci) (filter : RunFilter) :
    (ofCdRuns ctx stage ci runs filter).Spec ctx stage true := by
  have hfilter : (filter.terms stage (some .cd)).Fit runs.aliases :=
    (filter.fit_terms (some .cd)).mono runs.jr_subset_aliases
  have halias := (Join.jobRun ci).noColon_tableAlias
  show (ofRun stage [] _ (fun run => .same run "ci_job_run_id" (Join.jobRun ci).tableAlias "id") _).Spec ctx stage true
  refine spec_ofRun (runSource_runSelect ((runs.fit_terms stage 0).append hfilter) .platformCd)
    (Or.inl rfl) (by simp) (fun run hr => by simp +decide [hr, halias]) fun r hr name hn => ?_
  simp only [Expr.same, Expr.equal, Expr.seen_binary, Expr.seen_column, View.see_tables, Token.table?, Option.toList_some,
    List.cons_append, List.nil_append, List.mem_pair] at hn
  rcases hn with rfl | rfl
  · exact Or.inl rfl
  · have hheld := hr.previousCi ci hci
    have hlt := hr.earlier (.jobRun ci) ci rfl hheld
    refine Or.inr (Registry.mem_below (Registry.isJoined_iff.2 (Or.inr hheld)) ?_)
    rw [Bool.eq_false_iff, Ne, Join.ranksBefore_iff]
    simpa [Join.rank] using hlt

theorem spec_ofDeploy (marker : String) (buildJobIds : List String) :
    (ofDeploy ctx stage runs marker buildJobIds).Spec ctx stage true := by
  have hname := Placeholder.ofStage_name stage 0
  have hvalue := Placeholder.ofStage_indexedValue stage 0
  have haliases : runs.aliases ⊆ ["jr", "jrp"] := by
    unfold RunMatch.aliases
    split <;> simp
  let own : Terms := runs.terms stage 1 ++
    ⟨[.equal (.column "jrp" "name") (.placeholder (Placeholder.name stage 0))],
      [(Placeholder.name stage 0, .text marker)]⟩
  have hown : own.Fit ["jr", "jrp"] :=
    ((runs.fit_terms stage 1).mono haliases).append
      (.single (by simp) (by simp +decide [hname.isName]) (by simp) hname)
  let build : Terms :=
    if buildJobIds.isEmpty then .none
    else ⟨[.among (.column "jr" "cicd_job_id") (Placeholder.indexedValue stage 0)],
      [(Placeholder.indexedValue stage 0, .textList buildJobIds)]⟩
  have hbuild : build.Fit ["jr", "jrp"] := by
    simp only [build]
    split
    · exact .none
    · exact .single (by simp) (by simp +decide [hvalue.isName]) (by simp) hvalue
  show (ofMappedRun stage (.paired ((DeploySelect.mk (own ++ runPredicates ctx stage).conditions
    build.conditions).select ctx.joins.schema)) _).Spec ctx stage true
  exact spec_ofMappedRun (runSource_deploySelect hown hbuild)

end StageEvent.Clause

/-- The clause of every event, at every stage, does what clauses of stages do. -/
theorem StageEvent.spec_clause {ctx : EventContext} {name : String} {stage : Nat} {event : StageEvent}
    {clause : StageClause} (h : event.clause ctx name stage = .ok clause) :
    clause.Spec ctx stage event.kind.isJobRun := by
  cases event with
  | cdJobRun runs filter =>
    obtain ⟨ci, hci, rfl⟩ := clause_cdJobRun_eq_ok.1 h
    exact Clause.spec_ofCdRuns hci filter
  | statusReached statuses =>
    cases h
    exact Clause.spec_ofStatus statuses
  | commitCreated =>
    cases h
    have hl : (Expr.column "c" "committed_at").Legible := ⟨by decide, by decide⟩
    exact Clause.spec_ofTime (j := .commit) rfl hl (by simp [Join.tableAlias]) rfl .min
  | prCreated branches | prMerged branches =>
    cases h
    exact Clause.spec_ofPullRequest (by decide) _ branches
  | prLabelAdded labels =>
    cases h
    exact Clause.spec_ofLabel labels
  | prReviewStarted | prApproved =>
    cases h
    exact Clause.spec_ofReview (by decide) _
  | jobRun runs filter | ciJobRun runs filter =>
    cases h
    exact Clause.spec_ofRuns _ (filter.fit_terms _)
  | thirdPartyCiJobRun runs =>
    cases h
    exact Clause.spec_ofRuns _ .none
  | deployJobRun runs marker buildJobIds =>
    cases h
    exact Clause.spec_ofDeploy marker buildJobIds
  | genericEvent types =>
    cases h
    exact Clause.spec_ofGenericEvent types

end LeadTime
