import LeadTime.OutputShape
import LeadTime.Request
import LeadTime.Scope
import LeadTime.StageEvent.Clause
import LeadTime.StageMap

/-! Compiling a request. A plan holds the parts of the query: its pipeline, its inner layers, its outer shape, and
the joins and bindings that the steps asked for. `Plan.query` writes it out. -/
namespace LeadTime

open Sql

/-- What does not vary from request to request. -/
structure CompilerSettings where
  schema : String
  prIssueCorrelation : Bool
  defaultPageSize : UInt64
  deriving DecidableEq, Repr

def CompilerSettings.standard : CompilerSettings := ⟨"public", true, 25⟩

/-- A query in its text, with the values of its placeholders and the stages that its columns stand for. -/
structure CompiledQuery where
  sql : String
  countSql : Option String
  bindings : Bindings
  stages : StageMap

structure Plan where
  pipeline : Pipeline
  shape : OutputShape
  layers : Layers
  joins : Registry
  bindings : Bindings
  warnings : List Warning

namespace Plan

def tokens (p : Plan) : List Token := p.shape.tokens p.pipeline.stages.length p.layers.tokens

def countTokens (p : Plan) : Option (List Token) :=
  p.shape.countTokens p.pipeline.stages.length p.layers.tokens

def query (p : Plan) : CompiledQuery where
  sql := text p.tokens
  countSql := p.countTokens.map text
  bindings := p.bindings
  stages := .ofStages p.pipeline.stages

end Plan

namespace Query

def requireTarget (q : Query) (p : Pipeline) : Except Error (Stage × Nat) :=
  match q.targetStage with
  | none => .error (.noTargetStage q.across)
  | some name => p.requireStage name

/-- The stages that ratings are about: the one that is named, else all. -/
def ratedStages (q : Query) (p : Pipeline) : Except Error (List (Stage × Nat)) :=
  match q.targetStage with
  | none => .ok p.stages.zipIdx
  | some name => (p.requireStage name).map ([·])

/-- The conditions that a stage's time is in one of the wanted buckets; of every stage, unless one is named. -/
def ratingConditions (q : Query) (p : Pipeline) : Except Error (List Expr) := do
  let stages ← q.ratedStages p
  let conditions ← stages.mapM fun (stage, index) =>
    (stage.thresholds q.thresholds).map fun t => q.ratings.map (t.condition index)
  return conditions.flatten

def shape (q : Query) (p : Pipeline) (defaultPageSize : UInt64) : Except Error OutputShape := do
  match q.across with
  | .velocity => return .velocity
  | .trend => return .trend
  | .stack => return .stack
  | .values =>
    let page ← Page.new q.page.toNat (q.pageSize.getD defaultPageSize).toNat
    let ratings ← if q.ratings.isEmpty then pure none else (q.ratingConditions p).map some
    return .values (ListingOrder.ofQuery q p).terms page ratings
  | .histogram =>
    if q.buckets = 0 then throw .noBuckets
    let (stage, index) ← q.requireTarget p
    return .histogram index (← stage.histogramEnd) q.buckets.toNat
  | .rating =>
    let (stage, index) ← q.requireTarget p
    return .rating index (← stage.thresholds q.thresholds)

def stackColumn (q : Query) (anchor : Anchor) : Except Error (Option Expr) :=
  if q.across ≠ .stack then .ok none
  else
    match q.stack with
    | none => .error .noStackDimension
    | some stack =>
      if !anchor.hasIssues then .error .stackWithoutIssues
      else
        let column := Expr.column "im" (stack.column anchor.issueSystem)
        .ok (some (if stack.isArray then .call "UNNEST" column else column))

/-- What the order of a listing leaves aside; other modes have no order. -/
def orderWarnings (q : Query) (p : Pipeline) : List Warning :=
  if q.across = .values then (ListingOrder.ofQuery q p).warnings else []

end Query

structure StageProgress where
  draft : Draft
  previousCi : Option Nat
  columns : List StageColumn
  predicates : List Expr

namespace StageProgress

def addStage (lastJobRun : Option Nat) (runPredicates : List Expr) (progress : StageProgress)
    (indexed : Stage × Nat) : Except Error StageProgress := do
  let (stage, index) := indexed
  let event ← StageEvent.ofStage stage
  let context : EventContext :=
    { joins := progress.draft.joins.context
      lastJobRun := lastJobRun
      runPredicates := runPredicates
      previousCi := progress.previousCi }
  let clause ← event.clause context stage.name index
  return {
    draft := progress.draft.meet clause.demand
    previousCi := StageEvent.nextCi progress.previousCi index event
    columns := progress.columns ++ [⟨clause.timestamp, clause.aggregate⟩]
    predicates := progress.predicates ++ clause.predicates }

end StageProgress

structure Compiler where
  settings : CompilerSettings
  rules : FilterRules

namespace Compiler

def joinContext (c : Compiler) (q : Query) (anchor : Anchor) : JoinContext where
  schema := c.settings.schema
  anchor := anchor
  freshness := q.needsFreshness
  prIssueCorrelation := c.settings.prIssueCorrelation

def firstRequests (q : Query) (anchor : Anchor) : List JoinRequest :=
  if anchor.isIssue then if q.needsFreshness then [.held .freshness] else []
  else if anchor.hasIssues then [.held .issue] else []

def scope (c : Compiler) (r : Request) (p : Pipeline) : Scope where
  schema := c.settings.schema
  anchor := p.anchor
  rules := c.rules
  filters := r.filters
  query := r.query
  lastJobRun := p.lastJobRun?

/-- The plan of a request. The pipeline is checked first, then the mode, then the filter of job runs, then the
stages, then the other filters. -/
def plan (c : Compiler) (r : Request) : Except Error Plan := do
  let q := r.query
  let p ← Pipeline.assemble r.pipeline q
  let shape ← q.shape p c.settings.defaultPageSize
  let stack ← q.stackColumn p.anchor
  let start := p.start.clause p.anchor
  let scope := c.scope r p
  let (runTerms, runWarnings) ← scope.runTerms
  let draft := (Draft.empty (c.joinContext q p.anchor)).meet
    (⟨firstRequests q p.anchor, []⟩ ++ start.demand ++ ⟨[], runTerms.bindings⟩)
  let progress ← p.stages.zipIdx.foldlM
    (StageProgress.addStage p.lastJobRun? runTerms.conditions) ⟨draft, none, [], []⟩
  let (draft, composed) := scope.compose progress.draft
  let conditions ← composed
  return {
    pipeline := p
    shape := shape
    layers :=
      { anchor := p.anchor
        source := p.anchor.source c.settings.schema
        chain := draft.joins.tokens
        conditions := conditions ++ progress.predicates
        start := start.expression
        stages := progress.columns
        trend := q.across = .trend
        stack := stack
        formula := .ofQuery q }
    joins := draft.joins
    bindings := draft.bindings
    warnings := q.orderWarnings p ++ runWarnings }

def compile (c : Compiler) (r : Request) : Except Error CompiledQuery := (c.plan r).map Plan.query

end Compiler
end LeadTime
