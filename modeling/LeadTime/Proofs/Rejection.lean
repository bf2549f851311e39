import LeadTime.Proofs.IntegrationScope
import LeadTime.Proofs.JoinSet
import LeadTime.Proofs.Rejection.Mode
import LeadTime.Proofs.Rejection.Stages
import Mathlib

/-! Which requests are refused, and with what. A request demands things one after the other; it compiles where all of
them are given, and fails with the error of the first that is not. -/
namespace LeadTime

def Restriction.errors (restriction : Except String Restriction) : List Error :=
  (thrown restriction).map .refusedFilter

namespace EntityFilters

def runErrors (f : EntityFilters) (rules : FilterRules) : List Error :=
  f.jobRuns.toList.flatMap fun j => Restriction.errors (rules.jobRuns j "jr" f.orgUnit)

/-- The rules take the filters of issues, where there are any, of pull requests and of commits. -/
def entityErrors (f : EntityFilters) (rules : FilterRules) (system : IssueSystem) : List Error :=
  ((f.issuesOf system).flatMap fun i => Restriction.errors (rules.issues i "im" f.orgUnit)) ++
    (f.pullRequests.toList.flatMap fun p => Restriction.errors (rules.pullRequests p "pr" f.orgUnit)) ++
    (f.commits.toList.flatMap fun c => Restriction.errors (rules.commits c "c" f.orgUnit))

end EntityFilters

namespace Compiler

/-- There are integrations that the anchor may come from, the rules take the filters, and values of a dimension are
asked for only where there are issues. -/
def scopeErrors (c : Compiler) (r : Request) : List Error :=
  errorUnless (r.filters.integrationsOf (Pipeline.anchorOf r.query).join ≠ [])
      (.missingIntegrationIds r.query.calculation) ++
    r.filters.entityErrors c.rules r.query.issueSystem ++
    errorUnless (r.query.stack.isSome = true → r.query.stackValues ≠ [] → r.query.issueSystem ≠ .none)
      .stackValuesWithoutIssues

/-- The errors of all that a request lacks, in the order in which it is demanded. -/
def errors (c : Compiler) (r : Request) : List Error :=
  r.pipeline.assemblyErrors r.query ++ (r.query.shapeErrors r.pipeline c.settings.defaultPageSize ++
    (r.query.stackErrors ++ (r.filters.runErrors c.rules ++ (r.pipeline.stageErrors ++ c.scopeErrors r))))

end Compiler

namespace Scope

variable (s : Scope)

theorem raises_meetEach (d : Draft) (steps : List (Except Error ScopeClause)) :
    Raises (d.meetEach steps).2 (steps.flatMap thrown) := by
  induction steps generalizing d with
  | nil => exact .ok []
  | cons step rest ih =>
    cases step with
    | error e => exact .error e _
    | ok clause => exact (ih (d.meet clause.demand)).map

theorem raises_compose (d : Draft) : Raises (s.compose d).2 (s.clauses.flatMap thrown) := by
  have hmet := raises_meetEach d s.clauses
  unfold compose
  generalize d.meetEach s.clauses = met at hmet
  generalize s.clauses.flatMap thrown = es at hmet
  obtain ⟨d', result⟩ := met
  cases hmet with
  | ok conditions => exact .ok _
  | error e rest => exact .error e rest

theorem raises_runTerms : Raises s.runTerms (s.filters.runErrors s.rules) := by
  unfold runTerms EntityFilters.runErrors
  cases s.filters.jobRuns with
  | none => exact .ok _
  | some f =>
    simp only [Option.toList_some, List.flatMap_singleton, runAlias]
    cases s.rules.jobRuns f "jr" s.filters.orgUnit with
    | error reason => exact .error _ []
    | ok restriction =>
      dsimp only
      split
      · exact .ok _
      · split <;> exact .ok _

theorem thrown_anchorClause : thrown s.anchorClause =
    errorUnless (s.filters.integrationsOf s.anchor.join ≠ []) (.missingIntegrationIds s.anchor.calculation) := by
  rw [anchorClause_eq, anchorIds_eq, errorUnless]
  cases s.filters.integrationsOf s.anchor.join <;> rfl

theorem thrown_entityClause (j : Join) (unitCounts : Bool) (restriction : Except String Restriction) :
    thrown (s.entityClause j unitCounts restriction) = Restriction.errors restriction := by
  cases restriction with
  | error reason => rfl
  | ok r =>
    simp only [entityClause]
    split <;> rfl

theorem thrown_entityClauses : s.entityClauses.flatMap thrown =
    s.filters.entityErrors s.rules s.anchor.issueSystem := by
  simp only [entityClauses, toList_issues, List.flatMap_append, List.flatMap_map, thrown_entityClause,
    EntityFilters.entityErrors]
  rfl

theorem thrown_stackClause : thrown s.stackClause =
    errorUnless (s.query.stack.isSome = true → s.query.stackValues ≠ [] → s.anchor.issueSystem ≠ .none)
      .stackValuesWithoutIssues := by
  unfold stackClause
  cases s.query.stack with
  | none => simp [thrown, errorUnless]
  | some stack =>
    by_cases hv : s.query.stackValues = []
    · simp [thrown, errorUnless, hv]
    · by_cases hi : s.anchor.issueSystem = .none <;> simp [thrown, errorUnless, Anchor.hasIssues, hv, hi]

theorem thrown_clauses : s.clauses.flatMap thrown = thrown s.anchorClause ++ s.entityClauses.flatMap thrown ++
    thrown s.stackClause := by
  have hends : (s.endTimeClauses.map Except.ok).flatMap (thrown (ε := Error)) = [] := by
    rw [List.flatMap_map, List.flatMap_eq_nil_iff]
    exact fun _ _ => rfl
  simp [clauses, thrown, hends]

end Scope

namespace Compiler

theorem thrown_scope (c : Compiler) {r : Request} {p : Pipeline} (hanchor : p.anchor = Pipeline.anchorOf r.query) :
    (c.scope r p).clauses.flatMap thrown = c.scopeErrors r := by
  rw [Scope.thrown_clauses, Scope.thrown_anchorClause, Scope.thrown_entityClauses, Scope.thrown_stackClause]
  simp only [scope, hanchor]
  rfl

/-- Compiling fails with the first of these errors, and yields a plan where there are none. -/
theorem raises_plan (c : Compiler) (r : Request) : Raises (c.plan r) (c.errors r) := by
  refine (Pipeline.raises_assemble r.pipeline r.query).bind fun p hp => ?_
  have assembled := Pipeline.assembled_of_eq_ok hp
  have hanchor : p.anchor = Pipeline.anchorOf r.query := by rw [assembled.eq]
  have hstages : p.stages = Pipeline.stagesOf r.pipeline := by rw [assembled.eq]
  have hname : p.name = r.pipeline.name := by rw [assembled.eq]
  have hknown : ∀ stage ∈ p.stages, stage.kind?.isSome = true := by
    intro stage hs
    obtain ⟨kind, hk, -⟩ := assembled.stages stage (hstages ▸ hs)
    rw [hk]
    rfl
  refine (Query.raises_shape hstages hname _).bind fun shape _ => ?_
  refine (Query.raises_stackColumn (by rw [hanchor]; rfl)).bind fun stack _ => ?_
  refine (Scope.raises_runTerms (c.scope r p)).bind fun runs _ => ?_
  have hstageErrors : r.pipeline.stageErrors =
      p.stages.zipIdx.flatMap fun indexed => indexed.1.eventErrors ++ Stage.ciErrors p.stages indexed := by
    rw [hstages]
    rfl
  rw [hstageErrors]
  refine (StageProgress.raises_stages hknown rfl).bind fun progress _ => ?_
  rw [← c.thrown_scope hanchor]
  exact (Scope.raises_compose (c.scope r p) progress.draft).yield

/-- A request compiles just where it lacks nothing, and is refused with the error of the first that it lacks. -/
theorem compile_eq_error_iff (c : Compiler) (r : Request) :
    ((∃ q, c.compile r = .ok q) ↔ c.errors r = []) ∧
      ∀ e, c.compile r = .error e ↔ (c.errors r).head? = some e := by
  have h : Raises (c.compile r) (c.errors r) := (c.raises_plan r).map
  exact ⟨h.ok_iff, h.error_iff⟩

end Compiler
end LeadTime
