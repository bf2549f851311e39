import LeadTime.Proofs.Pipeline
import LeadTime.Proofs.QueryText
import LeadTime.Proofs.Registry.Ingestion
import LeadTime.Proofs.Registry.Reach
import Mathlib

/-! Which joins a query has. Its seeds are what the question, the start, the stages and the filters ask for; its chain
holds the joins besides the anchor that are reached from them, each written once. -/
namespace LeadTime

open Sql

def EventKind.joins (stage : Nat) : EventKind → List Join
  | .statusReached => [.statusHistory]
  | .commitCreated => [.commit]
  | .prCreated | .prMerged => [.pullRequest]
  | .prLabelAdded => [.pullRequest, .label stage]
  | .prReviewStarted | .prApproved => [.review]
  | .jobRun | .deployJobRun | .ciJobRun | .thirdPartyCiJobRun => [.cicdMapping, .jobRun stage]
  | .cdJobRun => [.jobRun stage]
  | .genericEvent => [.issue, .genericEvent stage]

/-- The joins that stages ask for, each by its index; one of no known kind asks for none. -/
def Stage.joins (indexed : Stage × Nat) : List Join := (indexed.1.kind?.map (EventKind.joins indexed.2)).getD []

namespace Query

/-- The issue that a query is about, as far as its anchor is another: the latest ingestion of issues, or issues. -/
def seeds (q : Query) : List Join :=
  match q.calculation with
  | .issueVelocity => if q.across ≠ .trend ∧ q.trendKeys = [] then [.freshness] else []
  | .prVelocity => if q.issueSystem ≠ .none then [.issue] else []

def stackSeeds (q : Query) : List Join := if q.stack.isSome ∧ q.stackValues ≠ [] then [.issue] else []

end Query

def PipelineConfig.startSeeds (config : PipelineConfig) : List Join :=
  (if config.startsAtCommit then [.commit] else []) ++ if config.startsAtGenericEvent then [.startEvent] else []

def Restriction.seeds (j : Join) : Except String Restriction → List Join
  | .ok r => if r.predicates.isEmpty then [] else [j]
  | .error _ => []

namespace EntityFilters

def issuesOf (f : EntityFilters) (system : IssueSystem) : List IssueFilter :=
  if system = .none then [] else f.issues.toList

/-- The entities whose filters come to predicates, and what filters of issues ask for besides. -/
def seeds (f : EntityFilters) (rules : FilterRules) (system : IssueSystem) : List Join :=
  ((f.issuesOf system).flatMap fun i => Restriction.seeds .issue (rules.issues i "im" f.orgUnit)) ++
    (f.pullRequests.toList.flatMap fun p => Restriction.seeds .pullRequest (rules.pullRequests p "pr" f.orgUnit)) ++
    (f.commits.toList.flatMap fun c => Restriction.seeds .commit (rules.commits c "c" f.orgUnit)) ++
    ((f.issuesOf system).flatMap fun i => if i.isActive.isSome then [.issue] else []) ++
    ((f.issuesOf system).flatMap fun i => if i.sprintStates = [] then [] else [.sprint])

end EntityFilters

def Compiler.seeds (c : Compiler) (r : Request) : List Join :=
  r.query.seeds ++ r.pipeline.startSeeds ++ (Pipeline.stagesOf r.pipeline).zipIdx.flatMap Stage.joins ++
    r.filters.seeds c.rules r.query.issueSystem ++ r.query.stackSeeds

def Request.CountsLatest (r : Request) : Prop :=
  (r.query.across ≠ .trend ∧ r.query.trendKeys = []) ∧
    (r.query.calculation = .issueVelocity ∨ r.query.issueSystem ≠ .none)

instance (r : Request) : Decidable r.CountsLatest := inferInstanceAs (Decidable (_ ∧ _))

/-- The query joins what a request asks for and what that reads from, as far as the anchor. -/
structure Plan.JoinsExactly (p : Plan) (c : Compiler) (r : Request) : Prop where
  written : p.Written
  /-- The lines of the joins stand in the query, one below the other. -/
  sql : ∃ before after, p.query.sql = before ++ "\n".intercalate (p.joins.lines.map fun line => text line.tokens) ++ after
  /-- A join is held if it is reached and is not the anchor. -/
  held : ∀ j, p.joins.holds j = true ↔
    j ≠ (Pipeline.anchorOf r.query).join ∧ Join.Reached (Pipeline.anchorOf r.query) (c.seeds r) j
  /-- No join is held twice. -/
  distinct : (p.joins.entries.map (·.join)).Nodup
  /-- The lines name each join that is held once, and no other. -/
  once : ∀ j : Join, (Sql.aliases p.joins.lines).count j.tableAlias = if p.joins.holds j then 1 else 0
  /-- The latest ingestion is joined once where it counts, and not otherwise. -/
  latest : p.joins.lines.flatMap JoinLine.ingestions =
    if r.CountsLatest then
      [⟨.inner, ⟨c.settings.schema, "integration_tracker"⟩, "it",
        [.same "it" "integration_id" "im" "integration_id", .same "it" "latest_ingested_at" "im" "ingested_at"]⟩]
    else []
  /-- Where it is joined, the query says so. -/
  latestText : r.CountsLatest → ∃ before after, p.query.sql = before ++ "INNER JOIN " ++ c.settings.schema ++
    ".integration_tracker AS it ON it.integration_id = im.integration_id" ++
      " AND it.latest_ingested_at = im.ingested_at" ++ after

section Requests

attribute [local simp] Registry.asked JoinRequest.asked?

theorem StartTime.asked_genericEvent (anchor : Anchor) (types : List String) (otherwise : StartTime) :
    Registry.asked (clause anchor (.genericEvent types otherwise)).demand.requests =
      Registry.asked (clause anchor otherwise).demand.requests ++ [.startEvent] := by
  have htypes : Registry.asked (typeDemand types).requests = [] := by
    unfold typeDemand
    split <;> simp [Demand.none]
  show Registry.asked ((clause anchor otherwise).demand.requests ++ [.held .startEvent] ++ (typeDemand types).requests) = _
  rw [Registry.asked_append, Registry.asked_append, htypes, List.append_nil]
  rfl

theorem PipelineConfig.asked_start (config : PipelineConfig) (anchor : Anchor) :
    Registry.asked ((Pipeline.configuredStart config).clause anchor).demand.requests = config.startSeeds := by
  unfold Pipeline.configuredStart startSeeds
  cases config.startsAtCommit <;> cases config.startsAtGenericEvent <;>
    simp only [reduceIte, Bool.false_eq_true, StartTime.asked_genericEvent] <;> rfl

theorem StartTime.spares_clause (anchor : Anchor) (start : StartTime) :
    ∀ req ∈ (start.clause anchor).demand.requests, req.SparesIngestions := by
  induction start with
  | anchorCreated => simp [clause, Demand.none]
  | commitCreated => simp [clause, JoinRequest.SparesIngestions]
  | genericEvent types otherwise ih =>
    intro req hm
    have hm : req ∈ (otherwise.clause anchor).demand.requests ++ [.held .startEvent] ++ (typeDemand types).requests := hm
    rcases List.mem_append.1 hm with hm | hm
    · rcases List.mem_append.1 hm with hm | hm
      · exact ih req hm
      · rw [List.mem_singleton.1 hm]
        trivial
    · rw [eq_of_mem_requests_typeDemand hm]
      simp [JoinRequest.SparesIngestions]

theorem Query.needsFreshness_iff (q : Query) : q.needsFreshness = true ↔ q.across ≠ .trend ∧ q.trendKeys = [] := by
  simp [needsFreshness]

theorem Query.asked_firstRequests (q : Query) :
    Registry.asked (Compiler.firstRequests q (Pipeline.anchorOf q)) = q.seeds := by
  unfold Compiler.firstRequests seeds
  cases hc : q.calculation with
  | issueVelocity =>
    by_cases h : q.across ≠ .trend ∧ q.trendKeys = [] <;>
      simp [Pipeline.anchorOf, Anchor.isIssue, hc, needsFreshness_iff, h]
  | prVelocity =>
    by_cases h : q.issueSystem = .none <;> simp [Pipeline.anchorOf, Anchor.isIssue, Anchor.hasIssues, hc, h]

namespace StageEvent

variable {ctx : EventContext} {name : String} {stage : Nat} {event : StageEvent} {clause : StageClause}

theorem asked_clause (h : event.clause ctx name stage = .ok clause) :
    Registry.asked clause.demand.requests = event.kind.joins stage := by
  cases event with
  | prCreated branches | prMerged branches =>
    cases h
    cases ha : ctx.joins.anchor.isIssue <;> simp [Clause.ofPullRequest, ha, EventKind.joins, kind]
  | cdJobRun runs filter =>
    obtain ⟨ci, -, rfl⟩ := clause_cdJobRun_eq_ok.1 h
    rfl
  | _ => cases h; rfl

attribute [local simp] JoinRequest.SparesIngestions JoinLine.ingestions JoinLine.tableJoins JoinLine.leftTable
  JoinContext.table Clause.ofTime Clause.ofRun Clause.ofMappedRun RunSelect.select RunSelect.runs RunSelect.jobs
  RunSelect.params RunSelect.artifacts DeploySelect.select DeploySelect.side

theorem spares_runSelect (select : RunSelect) (schema : String) (on : List Expr) (tableAlias : String) :
    (JoinLine.join .left (.select (select.select schema)) tableAlias on).ingestions = [] := by
  obtain ⟨shape, withParams, conditions⟩ := select
  cases shape <;> cases withParams <;> simp

theorem spares_clause (h : event.clause ctx name stage = .ok clause) :
    ∀ req ∈ clause.demand.requests, req.SparesIngestions := by
  cases event with
  | prCreated branches | prMerged branches =>
    cases h
    cases ha : ctx.joins.anchor.isIssue <;> simp [Clause.ofPullRequest, ha]
  | cdJobRun runs filter =>
    obtain ⟨ci, -, rfl⟩ := clause_cdJobRun_eq_ok.1 h
    exact List.forall_mem_singleton.2 (spares_runSelect _ _ _ _)
  | jobRun runs filter | ciJobRun runs filter | thirdPartyCiJobRun runs =>
    cases h
    exact List.forall_mem_cons.2 ⟨trivial, List.forall_mem_singleton.2 (spares_runSelect _ _ _ _)⟩
  | deployJobRun runs marker buildJobIds => cases h; simp [Clause.ofDeploy]
  | prLabelAdded labels => cases h; simp [Clause.ofLabel]
  | genericEvent types => cases h; simp [Clause.ofGenericEvent]
  | statusReached statuses => cases h; simp [Clause.ofStatus]
  | prReviewStarted | prApproved => cases h; simp [Clause.ofReview]
  | commitCreated => cases h; simp

end StageEvent

def Scope.askedBy : Except Error ScopeClause → List Join
  | .ok clause => Registry.asked clause.demand.requests
  | .error _ => []

namespace Scope

variable {s : Scope}

theorem askedBy_entityClause (s : Scope) (j : Join) (unitCounts : Bool) (restriction : Except String Restriction) :
    askedBy (s.entityClause j unitCounts restriction) = Restriction.seeds j restriction := by
  cases restriction with
  | error reason => rfl
  | ok r =>
    have hempty : r.isEmpty = r.predicates.isEmpty := rfl
    cases h : r.predicates.isEmpty <;> simp [entityClause, Restriction.seeds, askedBy, nothing, Demand.none, hempty, h]

theorem askedBy_entityClauses (s : Scope) : s.entityClauses.flatMap askedBy =
    (s.issues.toList.flatMap fun i => Restriction.seeds .issue (s.rules.issues i "im" s.filters.orgUnit)) ++
      (s.filters.pullRequests.toList.flatMap fun p =>
        Restriction.seeds .pullRequest (s.rules.pullRequests p "pr" s.filters.orgUnit)) ++
      s.filters.commits.toList.flatMap fun c =>
        Restriction.seeds .commit (s.rules.commits c "c" s.filters.orgUnit) := by
  simp only [entityClauses, List.flatMap_append, List.flatMap_map, askedBy_entityClause]
  rfl

theorem asked_activePart (s : Scope) : Registry.asked s.activePart.demand.requests =
    s.issues.toList.flatMap fun i => if i.isActive.isSome then [.issue] else [] := by
  unfold activePart
  cases s.issues with
  | none => simp [whenSome, nothing, Demand.none]
  | some f => cases hf : f.isActive <;> simp [whenSome, nothing, Demand.none, activeClause, hf]

theorem asked_sprintPart (s : Scope) : Registry.asked s.sprintPart.demand.requests =
    s.issues.toList.flatMap fun i => if i.sprintStates = [] then [] else [.sprint] := by
  unfold sprintPart
  cases s.issues with
  | none => simp [whenSome, nothing, Demand.none]
  | some f => cases hf : f.sprintStates <;> simp [whenSome, nothing, Demand.none, sprintClause, hf]

theorem asked_stackClause {clause : ScopeClause} (h : s.stackClause = .ok clause) :
    Registry.asked clause.demand.requests = s.query.stackSeeds := by
  unfold stackClause at h
  unfold Query.stackSeeds
  cases hk : s.query.stack <;> cases hv : s.query.stackValues <;> cases hi : s.anchor.hasIssues <;>
    simp [hk, hv, hi] at h <;> subst h <;> simp [nothing, Demand.none]

theorem asked_trendClause (s : Scope) : Registry.asked s.trendClause.demand.requests = [] := by
  unfold trendClause
  split <;> rfl

theorem toList_issues (s : Scope) : s.issues.toList = s.filters.issuesOf s.anchor.issueSystem := by
  by_cases hi : s.anchor.issueSystem = .none <;> simp [issues, EntityFilters.issuesOf, Anchor.hasIssues, hi]

theorem asked_clauses {clauses : List ScopeClause} (h : s.clauses = clauses.map .ok) :
    Registry.asked (clauses.flatMap (·.demand.requests)) =
      s.filters.seeds s.rules s.anchor.issueSystem ++ s.query.stackSeeds := by
  obtain ⟨entities, stack, -, he, hs, rfl⟩ := clauses_eq_ok h
  have hentities : Registry.asked (entities.flatMap (·.demand.requests)) = s.entityClauses.flatMap askedBy := by
    rw [he, Registry.asked, List.filterMap_flatMap, List.flatMap_map]
    rfl
  have hends : Registry.asked (s.endTimeClauses.flatMap (·.demand.requests)) = [] := by
    rw [requests_endTimeClauses]
    rfl
  have hanchor : Registry.asked s.anchorPart.demand.requests = [] := rfl
  simp only [ownClauses, List.flatMap_append, List.flatMap_cons, List.flatMap_nil, Registry.asked_append, hanchor,
    hentities, hends, asked_activePart, asked_sprintPart, asked_stackClause hs, asked_trendClause,
    askedBy_entityClauses, toList_issues, EntityFilters.seeds, List.nil_append, List.append_nil, List.append_assoc]

theorem spares_clauses {clauses : List ScopeClause} (h : s.clauses = clauses.map .ok) :
    ∀ req ∈ clauses.flatMap (·.demand.requests), req.SparesIngestions := by
  obtain ⟨before, after, hb, ha, hr⟩ := requests_eq h
  have hentity : ∀ req, ForEntity req → req.SparesIngestions := by rintro _ (rfl | rfl | rfl) <;> trivial
  have hsprint : s.sprintLine.ingestions = [] := by
    simp only [sprintLine, sprintSelect, JoinLine.ingestions]
    split <;> simp [JoinLine.tableJoins]
  rw [hr]
  intro req hm
  rcases List.mem_append.1 hm with hm | hm
  · rcases List.mem_append.1 hm with hm | hm
    · exact hentity req (hb req hm)
    · rcases s.requests_sprintPart with hp | hp <;> rw [hp] at hm
      · simp at hm
      · rw [List.mem_singleton.1 hm]
        exact hsprint
  · exact hentity req (ha req hm)

end Scope

end Requests

namespace Compilation

variable {c : Compiler} {r : Request} (k : Compilation c r)

/-- The joins are those that a request seeds, asked for one after the other; what is asked for is proper and leaves the
table of ingestions to the registry. -/
structure Requests (k : Compilation c r) (reqs : List JoinRequest) (seeds : List Join) (joins : Registry) : Prop where
  joins : joins = (Registry.empty k.context).requestAll reqs
  asked : Registry.asked reqs = seeds
  proper : ∀ req ∈ reqs, req.Proper ∧ req.SparesIngestions

theorem Requests.append {k : Compilation c r} {reqs more : List JoinRequest} {seeds moreSeeds : List Join}
    {joins : Registry} (h : k.Requests reqs seeds joins) (hasked : Registry.asked more = moreSeeds)
    (hproper : ∀ req ∈ more, req.Proper ∧ req.SparesIngestions) :
    k.Requests (reqs ++ more) (seeds ++ moreSeeds) (joins.requestAll more) where
  joins := by rw [h.joins, Registry.requestAll_append]
  asked := by rw [Registry.asked_append, h.asked, hasked]
  proper req hm := (List.mem_append.1 hm).elim (h.proper req) (hproper req)

theorem requests_first :
    k.Requests k.firstRequests (r.query.seeds ++ r.pipeline.startSeeds) k.first.draft.joins where
  joins := k.joins_first
  asked := by
    rw [firstRequests, Registry.asked_append, anchor_eq, Query.asked_firstRequests, start_eq,
      PipelineConfig.asked_start]
  proper req hm := by
    refine ⟨Registry.proper_of_closeAll k.closeAll_firstRequests req hm, ?_⟩
    rcases k.mem_firstRequests_cases hm with rfl | rfl | hm
    · trivial
    · trivial
    · exact StartTime.spares_clause _ _ req hm

theorem requests_progress : ∃ reqs, k.Requests reqs (r.query.seeds ++ r.pipeline.startSeeds ++
    (Pipeline.stagesOf r.pipeline).zipIdx.flatMap Stage.joins) k.progress.draft.joins := by
  have hall := k.induction (P := fun n s => ∃ reqs, k.Requests reqs (r.query.seeds ++ r.pipeline.startSeeds ++
    (k.pipeline.stages.take n).zipIdx.flatMap Stage.joins) s.draft.joins) ?_ ?_
  · rwa [List.take_length, stages_eq] at hall
  · exact ⟨k.firstRequests, by simpa using k.requests_first⟩
  · rintro i s stage event clause hst he hc - ⟨reqs, hreqs⟩
    refine ⟨reqs ++ clause.demand.requests, ?_⟩
    have hkind : stage.kind? = some event.kind := StageEvent.kind_ofStage he
    have hlt : i < k.pipeline.stages.length := (List.getElem?_eq_some_iff.1 hst).1
    have hjoins : Registry.asked clause.demand.requests = Stage.joins (stage, i) := by
      rw [StageEvent.asked_clause hc, Stage.joins, hkind]
      rfl
    have htake : (k.pipeline.stages.take (i + 1)).zipIdx.flatMap Stage.joins =
        (k.pipeline.stages.take i).zipIdx.flatMap Stage.joins ++ Stage.joins (stage, i) := by
      rw [List.take_add_one, hst, List.zipIdx_append, List.flatMap_append, List.length_take_of_le hlt.le]
      simp
    rw [htake, ← List.append_assoc]
    exact hreqs.append hjoins fun req hm =>
      ⟨(StageEvent.spec_clause hc).proper req hm, StageEvent.spares_clause hc req hm⟩

theorem requests_met : ∃ reqs, k.Requests reqs (c.seeds r) k.met.joins := by
  obtain ⟨reqs, hreqs⟩ := k.requests_progress
  have hasked := Scope.asked_clauses k.posed
  have hproper := Registry.proper_of_closeAll (r := k.progress.draft.joins) (Scope.closeAll_requests k.posed)
  have hmet := hreqs.append hasked fun req hm => ⟨hproper req hm, Scope.spares_clauses k.posed req hm⟩
  have hscope : (c.scope r k.pipeline).anchor.issueSystem = r.query.issueSystem := by
    show k.pipeline.anchor.issueSystem = _
    rw [anchor_eq]
    rfl
  rw [← joins_met, hscope, ← List.append_assoc] at hmet
  exact ⟨_, hmet⟩

theorem holds_met_iff (j : Join) : k.met.joins.holds j = true ↔
    j ≠ (Pipeline.anchorOf r.query).join ∧ Join.Reached (Pipeline.anchorOf r.query) (c.seeds r) j := by
  obtain ⟨reqs, hreqs⟩ := k.requests_met
  have hanchor : k.context.anchor = Pipeline.anchorOf r.query := k.anchor_eq
  rw [hreqs.joins, Registry.holds_requestAll_empty_iff, hreqs.asked, hanchor]

theorem ingests_met : k.met.joins.Ingests := by
  obtain ⟨reqs, hreqs⟩ := k.requests_met
  rw [hreqs.joins]
  exact (Registry.ingests_empty k.context).requestAll hreqs.proper

end Compilation

def Join.ofIssues : Join → Bool
  | .issue | .freshness | .startEvent | .sprint | .statusHistory | .genericEvent _ => true
  | _ => false

theorem Join.Reached.ofIssues {a : Anchor} {seeds : List Join} {j : Join} (h : Reached a seeds j)
    (hseeds : ∀ s ∈ seeds, s.ofIssues = false) : j.ofIssues = false := by
  induction h with
  | seed h => exact hseeds _ h
  | @dependency j d _ _ direct ih =>
    cases j <;> simp only [Join.dependency?, Option.some.injEq, reduceCtorEq] at direct <;> subst direct <;>
      first | rfl | exact ih

/-- What no join reads from is reached as a seed alone. -/
theorem Join.Reached.mem_seeds {a : Anchor} {seeds : List Join} (h : Reached a seeds .freshness) :
    .freshness ∈ seeds := by
  cases h with
  | seed h => exact h
  | @dependency j _ _ _ direct => cases j <;> simp [Join.dependency?] at direct

theorem EventKind.ofIssues_joins {kind : EventKind} (h : kind.needsIssues = false) (stage : Nat) :
    ∀ j ∈ kind.joins stage, j.ofIssues = false := by
  cases kind <;> simp [needsIssues] at h <;> simp [joins, Join.ofIssues]

theorem EventKind.freshness_notMem_joins (kind : EventKind) (stage : Nat) : .freshness ∉ kind.joins stage := by
  cases kind <;> simp [joins]

namespace Compilation

variable {c : Compiler} {r : Request} (k : Compilation c r)

theorem mem_stageSeeds (k : Compilation c r) {j : Join}
    (h : j ∈ (Pipeline.stagesOf r.pipeline).zipIdx.flatMap Stage.joins) :
    ∃ kind i, j ∈ EventKind.joins i kind ∧
      (kind.needsIssues = true → (Pipeline.anchorOf r.query).hasIssues = true) := by
  obtain ⟨⟨s, i⟩, hs, hj⟩ := List.mem_flatMap.1 h
  obtain ⟨kind, hk, hissues⟩ := k.assembled_pipeline.stages s (List.fst_mem_of_mem_zipIdx hs)
  refine ⟨kind, i, ?_, hissues⟩
  simpa [Stage.joins, hk] using hj

theorem hasIssues_of_stackSeeds (k : Compilation c r) (h : r.query.stackSeeds ≠ []) :
    (Pipeline.anchorOf r.query).hasIssues = true := by
  obtain ⟨-, stack, -, -, hs, -⟩ := Scope.clauses_eq_ok k.posed
  rw [← Bool.not_eq_false]
  intro hn
  have hanchor : (c.scope r k.pipeline).anchor = Pipeline.anchorOf r.query := k.anchor_eq
  have hquery : (c.scope r k.pipeline).query = r.query := rfl
  simp only [Scope.stackClause, hanchor, hquery] at hs
  unfold Query.stackSeeds at h
  cases hk : r.query.stack <;> cases hv : r.query.stackValues <;> simp [hk, hv, hn] at h hs

theorem mem_filterSeeds {f : EntityFilters} {rules : FilterRules} {system : IssueSystem} {j : Join}
    (h : j ∈ f.seeds rules system) :
    (system ≠ .none ∧ (j = .issue ∨ j = .sprint)) ∨ j = .pullRequest ∨ j = .commit := by
  have hseeds {j i : Join} {restriction : Except String Restriction} (h : j ∈ Restriction.seeds i restriction) :
      j = i := by
    unfold Restriction.seeds at h
    split at h
    · split at h <;> simp at h
      exact h
    · simp at h
  have hissues {i : IssueFilter} (h : i ∈ f.issuesOf system) : system ≠ .none := by
    rintro rfl
    simp [EntityFilters.issuesOf] at h
  simp only [EntityFilters.seeds, List.mem_append, List.mem_flatMap] at h
  rcases h with (((⟨i, hi, h⟩ | ⟨p, -, h⟩) | ⟨p, -, h⟩) | ⟨i, hi, h⟩) | ⟨i, hi, h⟩
  · exact Or.inl ⟨hissues hi, Or.inl (hseeds h)⟩
  · exact Or.inr (Or.inl (hseeds h))
  · exact Or.inr (Or.inr (hseeds h))
  · refine Or.inl ⟨hissues hi, Or.inl ?_⟩
    split at h <;> simp at h
    exact h
  · refine Or.inl ⟨hissues hi, Or.inr ?_⟩
    split at h <;> simp at h
    exact h

/-- Where there is no system of issues, nothing of issues is asked for. -/
theorem ofIssues_seeds (k : Compilation c r) (h : r.query.issueSystem = .none) :
    ∀ j ∈ c.seeds r, j.ofIssues = false := by
  have hnone : ¬ (Pipeline.anchorOf r.query).hasIssues = true := by simp [Pipeline.anchorOf, Anchor.hasIssues, h]
  have hpr : ¬ (Pipeline.anchorOf r.query).isIssue = true := fun hi => hnone (k.assembled_pipeline.issues hi)
  have hquery : r.query.seeds = [] := by
    unfold Query.seeds
    cases hc : r.query.calculation with
    | issueVelocity => simp [Pipeline.anchorOf, Anchor.isIssue, hc] at hpr
    | prVelocity => simp [h]
  have hstart : ∀ j ∈ r.pipeline.startSeeds, j = .commit := by
    have hg : r.pipeline.startsAtGenericEvent = false := by
      rw [Bool.eq_false_iff]
      exact fun hg => hpr (k.assembled_pipeline.start hg)
    unfold PipelineConfig.startSeeds
    cases r.pipeline.startsAtCommit <;> simp [hg]
  have hstack : r.query.stackSeeds = [] := by
    by_contra hs
    exact hnone (k.hasIssues_of_stackSeeds hs)
  intro j hj
  simp only [Compiler.seeds, hquery, hstack, List.nil_append, List.append_nil, List.mem_append] at hj
  rcases hj with (hj | hj) | hj
  · rw [hstart j hj]
    rfl
  · obtain ⟨kind, i, hj, hissues⟩ := k.mem_stageSeeds hj
    exact EventKind.ofIssues_joins (by rw [Bool.eq_false_iff]; exact fun hn => hnone (hissues hn)) i j hj
  · rcases mem_filterSeeds hj with ⟨hs, -⟩ | rfl | rfl
    · exact absurd h hs
    · rfl
    · rfl

theorem freshness_mem_seeds (k : Compilation c r) : .freshness ∈ c.seeds r ↔
    r.query.calculation = .issueVelocity ∧ r.query.across ≠ .trend ∧ r.query.trendKeys = [] := by
  have hstart : .freshness ∉ r.pipeline.startSeeds := by
    unfold PipelineConfig.startSeeds
    cases r.pipeline.startsAtCommit <;> cases r.pipeline.startsAtGenericEvent <;> simp
  have hstages : .freshness ∉ (Pipeline.stagesOf r.pipeline).zipIdx.flatMap Stage.joins := fun hj => by
    obtain ⟨kind, i, hj, -⟩ := k.mem_stageSeeds hj
    exact kind.freshness_notMem_joins i hj
  have hfilters : .freshness ∉ r.filters.seeds c.rules r.query.issueSystem := fun hj => by
    rcases mem_filterSeeds hj with ⟨-, hj | hj⟩ | hj | hj <;> cases hj
  have hstack : .freshness ∉ r.query.stackSeeds := by
    unfold Query.stackSeeds
    split <;> simp
  simp only [Compiler.seeds, List.mem_append, hstart, hstages, hfilters, hstack, or_false, Query.seeds]
  cases r.query.calculation with
  | issueVelocity => by_cases h : r.query.across ≠ .trend ∧ r.query.trendKeys = [] <;> simp [h]
  | prVelocity => by_cases h : r.query.issueSystem = .none <;> simp [h]

theorem holds_freshness_iff (k : Compilation c r) : k.met.joins.holds .freshness = true ↔
    r.query.calculation = .issueVelocity ∧ r.query.across ≠ .trend ∧ r.query.trendKeys = [] := by
  rw [holds_met_iff, ← k.freshness_mem_seeds]
  have hne : Join.freshness ≠ (Pipeline.anchorOf r.query).join := by
    rcases Registry.anchor_join (Pipeline.anchorOf r.query) with h | h <;> rw [h] <;> simp
  exact ⟨fun h => h.2.mem_seeds, fun h => ⟨hne, .seed h⟩⟩

theorem holds_issue_iff (k : Compilation c r) (h : r.query.calculation = .prVelocity) :
    k.met.joins.holds .issue = true ↔ r.query.issueSystem ≠ .none := by
  rw [holds_met_iff]
  have hjoin : (Pipeline.anchorOf r.query).join = .pullRequest := by
    simp [Pipeline.anchorOf, Anchor.join, Anchor.isIssue, h]
  constructor
  · rintro ⟨-, hreached⟩ hn
    have hfalse := hreached.ofIssues (k.ofIssues_seeds hn)
    cases hfalse
  · intro hi
    refine ⟨by simp [hjoin], .seed ?_⟩
    have hseeds : r.query.seeds = [.issue] := by simp [Query.seeds, h, hi]
    simp [Compiler.seeds, hseeds]

/-- The latest ingestion is joined once where it is what counts and there are issues to count, and not otherwise. -/
theorem ingestions_lines (k : Compilation c r) : k.met.joins.lines.flatMap JoinLine.ingestions =
    if r.CountsLatest then [k.context.latestIngestion] else [] := by
  have hissue : k.context.anchor.isIssue = decide (r.query.calculation = .issueVelocity) := by
    show k.pipeline.anchor.isIssue = _
    rw [anchor_eq]
    rfl
  have hlatest : k.context.freshness = true ↔ r.query.across ≠ .trend ∧ r.query.trendKeys = [] :=
    r.query.needsFreshness_iff
  rw [k.formed_met.ingestions_lines k.ingests_met, context_met]
  · refine if_congr ?_ rfl rfl
    rw [hlatest, Registry.ingesting, hissue, Request.CountsLatest]
    cases hc : r.query.calculation with
    | issueVelocity =>
      have hfresh := k.holds_freshness_iff
      simp only [decide_true, if_true, hfresh, hc, true_and, true_or, and_true, and_self]
    | prVelocity =>
      have hheld := k.holds_issue_iff hc
      simp only [reduceCtorEq, decide_false, Bool.false_eq_true, if_false, hheld, false_or]
      exact and_comm
  · rw [context_met, hissue, hlatest, decide_eq_true_iff]
    exact fun h => k.holds_freshness_iff.1 h

theorem text_latestIngestion (context : JoinContext) : text context.latestIngestion.tokens =
    "INNER JOIN " ++ context.schema ++ ".integration_tracker AS it ON it.integration_id = im.integration_id" ++
      " AND it.latest_ingested_at = im.ingested_at" := by
  apply String.toList_injective
  simp [JoinContext.latestIngestion, JoinContext.table, TableJoin.tokens, Table.tokens, Side.text, onAll, Expr.same,
    Expr.equal, Expr.tokens, Operator.text, separated, Token.text]

theorem exists_sql_latest (k : Compilation c r) (h : r.CountsLatest) : ∃ before after,
    k.plan.query.sql = before ++ "INNER JOIN " ++ c.settings.schema ++
      ".integration_tracker AS it ON it.integration_id = im.integration_id" ++
      " AND it.latest_ingested_at = im.ingested_at" ++ after := by
  have hlatest : k.context.latestIngestion ∈ k.met.joins.lines.flatMap JoinLine.ingestions := by
    rw [k.ingestions_lines, if_pos h]
    exact List.mem_singleton_self _
  obtain ⟨line, hl, hjoin⟩ := List.mem_flatMap.1 hlatest
  obtain ⟨before, after, hsql⟩ := k.written_plan.exists_line hl
  obtain ⟨above, below, hline⟩ := exists_text_of_infix (JoinLine.infix_tableJoins (List.mem_of_mem_filter hjoin))
  refine ⟨before ++ above, below ++ after, ?_⟩
  rw [hsql, hline, text_latestIngestion]
  simp only [String.append_assoc]
  rfl

theorem count_aliases (k : Compilation c r) (j : Join) :
    (Sql.aliases k.met.joins.lines).count j.tableAlias = if k.met.joins.holds j then 1 else 0 := by
  have hnodup := k.formed_met.nodup_aliases
  rw [Registry.aliases, List.nodup_cons] at hnodup
  have hmem : j.tableAlias ∈ Sql.aliases k.met.joins.lines ↔ k.met.joins.holds j = true := by
    rw [k.formed_met.aliases_lines, Registry.holds_iff]
    simp only [List.mem_flatMap, Registry.mem_ordered, JoinContext.mem_aliases_iff, eq_comm (a := j)]
  rw [List.Nodup.count hnodup.2]
  exact if_congr hmem rfl rfl

end Compilation

/-- Where compiling succeeds, the joins of the query are those besides the anchor that are reached from what the
request asks for, and each is written once. -/
theorem Compiler.joinsExactly_of_compile {c : Compiler} {r : Request} {q : CompiledQuery} (h : c.compile r = .ok q) :
    ∃ p, c.plan r = .ok p ∧ p.query = q ∧ p.JoinsExactly c r := by
  obtain ⟨p, hp, rfl⟩ := Except.map_eq_ok.1 h
  obtain ⟨k, rfl⟩ := Compilation.of_plan hp
  exact ⟨_, hp, rfl, {
    written := k.written_plan
    sql := k.written_plan.exists_lines
    held := k.holds_met_iff
    distinct := k.formed_met.nodup
    once := k.count_aliases
    latest := k.ingestions_lines
    latestText := k.exists_sql_latest }⟩

theorem Compiler.joinsExactly_delivery : ∃ q, (⟨.standard, .criteria⟩ : Compiler).compile .delivery = .ok q ∧
    ∃ p, (⟨.standard, .criteria⟩ : Compiler).plan .delivery = .ok p ∧ p.query = q ∧
      p.JoinsExactly ⟨.standard, .criteria⟩ .delivery := by
  obtain ⟨q, hq⟩ := exists_compile_eq_ok Request.isOk_plan_delivery
  exact ⟨q, hq, joinsExactly_of_compile hq⟩

example : (⟨.standard, .criteria⟩ : Compiler).seeds .delivery =
    [.freshness, .startEvent, .statusHistory, .pullRequest, .cicdMapping, .jobRun 2, .jobRun 3, .issue, .issue,
      .sprint] := by cbv

end LeadTime
