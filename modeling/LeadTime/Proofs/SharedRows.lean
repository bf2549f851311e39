import LeadTime.Proofs.Pipeline
import LeadTime.Proofs.QueryText
import Mathlib

/-! Modes that read the same rows. Whether a request asks for statistics, a listing, a histogram or ratings, its stages,
joins, conditions and bindings do not depend on the mode, nor on what only the outer layers read; so a listing shows
the very rows that the statistics count. A stack adds one column to these rows and to what they are grouped by. -/
namespace LeadTime

open Sql

/-- Requests for the same data. They may differ in the mode, and in what is asked of it: whether rows that did not reach a
stage count, pages and sorting, ratings and thresholds, the stage in question and the buckets of its histogram. -/
structure Request.SameData (r r' : Request) : Prop where
  pipeline : r'.pipeline = r.pipeline
  filters : r'.filters = r.filters
  calculation : r'.query.calculation = r.query.calculation
  issueSystem : r'.query.issueSystem = r.query.issueSystem
  stack : r'.query.stack = r.query.stack
  stackValues : r'.query.stackValues = r.query.stackValues
  trendKeys : r'.query.trendKeys = r.query.trendKeys

/-- The column that rows are stacked by, under its name. Modes other than the one that stacks have none. -/
def Query.dimensions (q : Query) : List (Expr × String) :=
  if q.across = .stack then
    q.stack.toList.map fun kind =>
      let column := Expr.column "im" (kind.column q.issueSystem)
      (if kind.isArray then .call "UNNEST" column else column, "stack")
  else []

namespace Layers

variable (l : Layers) (dimensions : List (Expr × String))

def groupsBy : List String := l.anchor.identityColumns ++ dimensions.map Prod.snd

def baseItemsBy : List Projection :=
  l.anchor.identity.map (fun column => .named column.1 column.2) ++
    dimensions.map (fun column => .named column.1 column.2) ++
    .named l.start startColumn ::
      l.stages.zipIdx.map fun (column, stage) => .named column.timestamp (eventColumn stage)

def rows : List Token :=
  .fixed " FROM " :: l.source.tokens ++ (if l.chain.isEmpty then [] else .fixed "\n" :: l.chain) ++
    whereAll "\nWHERE " l.conditions

def reduceBy : Layer where
  items := (l.groupsBy dimensions).map .name ++ aggregated .min startColumn ::
    l.stages.zipIdx.map fun (column, stage) => aggregated column.aggregate (eventColumn stage)
  as := "base"
  condition := none
  groupBy := l.groupsBy dimensions
  orderBy := none

def durationsBy : Layer := .over ((l.groupsBy dimensions).map .name ++ l.indices.map duration) "reduce"

def durationTokensBy : List Token :=
  stacked [l.reduceBy dimensions, l.durationsBy dimensions] (selectList (l.baseItemsBy dimensions) ++ l.rows)

/-- The layer over the durations, which alone reads the formula. -/
def enrichedBy (formula : Formula) : Layer :=
  .over
    ((l.groupsBy dimensions).map .name ++
      (l.indices.map fun stage => .named (formula.expression stage) (durationColumn stage)) ++ [.named l.total "t"])
    "durations"

/-- The layers agree, but for what they are stacked by and their formula. -/
structure SameRows (l l' : Layers) : Prop where
  anchor : l'.anchor = l.anchor
  source : l'.source = l.source
  chain : l'.chain = l.chain
  conditions : l'.conditions = l.conditions
  start : l'.start = l.start
  stages : l'.stages = l.stages
  trend : l'.trend = false

end Layers

/-- The plan reads these rows, by the dimensions of the query: its text has their durations, under the columns that the
formula makes of them and under the outer shape. -/
structure Plan.Reads (p : Plan) (q : Query) (l : Layers) : Prop where
  sql : p.query.sql = text (p.shape.tokens p.pipeline.stages.length
    ((l.enrichedBy q.dimensions (.ofQuery q)).tokens (l.durationTokensBy q.dimensions)))
  countSql : p.query.countSql = (p.shape.countTokens p.pipeline.stages.length
    ((l.enrichedBy q.dimensions (.ofQuery q)).tokens (l.durationTokensBy q.dimensions))).map text
  embedded : ∃ before after, p.query.sql = before ++ text (l.durationTokensBy q.dimensions) ++ after

namespace Layers

variable {l l' : Layers} {dimensions : List (Expr × String)}

theorem SameRows.tokens (h : l.SameRows l') (hd : l'.stack.toList.map (·, "stack") = dimensions) :
    l'.tokens = (l.enrichedBy dimensions l'.formula).tokens (l.durationTokensBy dimensions) := by
  obtain ⟨ha, hso, hc, hco, hst, hs, ht⟩ := h
  subst hd
  obtain ⟨anchor, source, chain, conditions, start, stages, trend, stack, formula⟩ := l'
  obtain rfl : anchor = l.anchor := ha
  obtain rfl : source = l.source := hso
  obtain rfl : chain = l.chain := hc
  obtain rfl : conditions = l.conditions := hco
  obtain rfl : start = l.start := hst
  obtain rfl : stages = l.stages := hs
  obtain rfl : trend = false := ht
  cases stack <;> simp [Layers.tokens, enriched, durationTokens, reduce, durations, groups, groupColumns, base,
    baseItems, enrichedBy, durationTokensBy, reduceBy, durationsBy, groupsBy, baseItemsBy, rows, total, indices]

end Layers

theorem Query.stack_eq_dimensions {q : Query} {stack : Option Expr}
    (h : q.stackColumn (Pipeline.anchorOf q) = .ok stack) : stack.toList.map (·, "stack") = q.dimensions := by
  unfold stackColumn at h
  unfold dimensions
  by_cases ha : q.across = .stack
  · rw [if_neg (by simpa using ha)] at h
    rw [if_pos ha]
    cases hk : q.stack with
    | none => simp [hk] at h
    | some kind =>
      simp only [hk] at h
      split at h
      · cases h
      · cases h
        rfl
  · rw [if_pos ha] at h
    rw [if_neg ha]
    cases h
    rfl

theorem Scope.clauses_congr {s : Scope} {q : Query} (hstack : q.stack = s.query.stack)
    (hvalues : q.stackValues = s.query.stackValues) (hkeys : q.trendKeys = s.query.trendKeys) :
    { s with query := q }.clauses = s.clauses := by
  have hs : { s with query := q }.stackClause = s.stackClause := by
    simp only [stackClause, hstack, hvalues]
  have ht : { s with query := q }.trendClause = s.trendClause := by
    simp only [trendClause, hkeys]
  simp only [clauses, hs, ht]
  rfl

namespace Compilation

variable {c : Compiler} {r r' : Request}

section SameData

variable (k : Compilation c r) (k' : Compilation c r') (same : r.SameData r')
include same

theorem anchorOf_eq_of_sameData : Pipeline.anchorOf r'.query = Pipeline.anchorOf r.query := by
  rw [Pipeline.anchorOf, Pipeline.anchorOf, same.calculation, same.issueSystem]

theorem pipeline_eq_of_sameData : k'.pipeline = k.pipeline := by
  rw [k'.assembled_pipeline.eq, k.assembled_pipeline.eq, same.pipeline, anchorOf_eq_of_sameData same]

theorem scope_eq_of_sameData : k'.scope = { k.scope with query := r'.query } := by
  simp only [scope, Compiler.scope, pipeline_eq_of_sameData k k' same, same.filters]

theorem runTerms_eq_of_sameData : k'.runTerms = k.runTerms := by
  have hscope : k'.scope.runTerms = k.scope.runTerms := by
    rw [scope_eq_of_sameData k k' same]
    rfl
  have hok : Except.ok (k'.runTerms, k'.runWarnings) = Except.ok (k.runTerms, k.runWarnings) :=
    k'.ranOver.symm.trans (hscope.trans k.ranOver)
  exact congrArg Prod.fst (Except.ok.inj hok)

theorem clauses_eq_of_sameData : k'.clauses = k.clauses := by
  have hscope : k'.scope.clauses = k.scope.clauses := by
    rw [scope_eq_of_sameData k k' same]
    exact Scope.clauses_congr same.stack same.stackValues same.trendKeys
  have hok : k'.clauses.map Except.ok = k.clauses.map Except.ok :=
    k'.posed.symm.trans (hscope.trans k.posed)
  exact List.map_injective_iff.2 (fun _ _ h => Except.ok.inj h) hok

section Modes

variable (hr : r.query.across ≠ .trend) (hr' : r'.query.across ≠ .trend)
include hr hr'

theorem needsFreshness_eq_of_sameData : r'.query.needsFreshness = r.query.needsFreshness := by
  simp only [Query.needsFreshness, same.trendKeys, hr, hr', ne_eq, not_false_eq_true, decide_true]

theorem context_eq_of_sameData : k'.context = k.context := by
  simp only [context, Compiler.joinContext, pipeline_eq_of_sameData k k' same,
    needsFreshness_eq_of_sameData same hr hr']

theorem first_eq_of_sameData : k'.first = k.first := by
  have hrequests (a : Anchor) : Compiler.firstRequests r'.query a = Compiler.firstRequests r.query a := by
    simp only [Compiler.firstRequests, needsFreshness_eq_of_sameData same hr hr']
  simp only [first, start, context_eq_of_sameData k k' same hr hr', hrequests, pipeline_eq_of_sameData k k' same,
    runTerms_eq_of_sameData k k' same]

theorem progress_eq_of_sameData : k'.progress = k.progress := by
  have hadded : k'.pipeline.stages.zipIdx.foldlM
      (StageProgress.addStage k'.pipeline.lastJobRun? k'.runTerms.conditions) k'.first = .ok k'.progress := k'.added
  rw [first_eq_of_sameData k k' same hr hr', pipeline_eq_of_sameData k k' same,
    runTerms_eq_of_sameData k k' same] at hadded
  exact Except.ok.inj (hadded.symm.trans k.added)

theorem met_eq_of_sameData : k'.met = k.met := by
  rw [met, met, progress_eq_of_sameData k k' same hr hr', clauses_eq_of_sameData k k' same]

theorem scopedEntities_eq_of_sameData : k'.scopedEntities = k.scopedEntities := by
  rw [scopedEntities, scopedEntities, met_eq_of_sameData k k' same hr hr', scope_eq_of_sameData k k' same]
  rfl

theorem bindings_eq_of_sameData : k'.bindings = k.bindings := by
  rw [bindings, bindings, met_eq_of_sameData k k' same hr hr', scopedEntities_eq_of_sameData k k' same hr hr']

theorem sameRows_of_sameData : k.plan.layers.SameRows k'.plan.layers where
  anchor := congrArg Pipeline.anchor (pipeline_eq_of_sameData k k' same)
  source := congrArg (fun p : Pipeline => p.anchor.source c.settings.schema) (pipeline_eq_of_sameData k k' same)
  chain := congrArg (fun d : Draft => d.joins.tokens) (met_eq_of_sameData k k' same hr hr')
  conditions := by
    show k'.conditions ++ k'.progress.predicates = k.conditions ++ k.progress.predicates
    rw [conditions, conditions, clauses_eq_of_sameData k k' same, scopedEntities_eq_of_sameData k k' same hr hr',
      progress_eq_of_sameData k k' same hr hr']
  start := by
    show k'.start.expression = k.start.expression
    rw [start, start, pipeline_eq_of_sameData k k' same]
  stages := congrArg StageProgress.columns (progress_eq_of_sameData k k' same hr hr')
  trend := by
    show decide (r'.query.across = .trend) = false
    exact decide_eq_false hr'

end Modes

end SameData

theorem reads_of_sameRows (k : Compilation c r) {l : Layers} (h : l.SameRows k.plan.layers) :
    k.plan.Reads r.query l := by
  have hstack : k.plan.layers.stack.toList.map (·, "stack") = r.query.dimensions :=
    Query.stack_eq_dimensions (by rw [← k.anchor_eq]; exact k.stacked)
  have htokens := h.tokens hstack
  have hformula : k.plan.layers.formula = .ofQuery r.query := rfl
  rw [hformula] at htokens
  have hsql : k.plan.query.sql =
      text (k.plan.shape.body k.plan.pipeline.stages.length k.plan.layers.tokens) ++ k.plan.shape.pageText :=
    OutputShape.text_tokens ..
  obtain ⟨before, after, hnest⟩ := exists_nest
    (l.enrichedBy r.query.dimensions (.ofQuery r.query) :: k.plan.shape.layers k.plan.pipeline.stages.length)
  have hbody : text (k.plan.shape.body k.plan.pipeline.stages.length k.plan.layers.tokens) =
      before ++ text (l.durationTokensBy r.query.dimensions) ++ after := by
    rw [OutputShape.body, htokens, text_stacked, Layer.text_tokens]
    exact hnest _
  exact {
    sql := by rw [← htokens]; rfl
    countSql := by rw [← htokens]; rfl
    embedded := ⟨before, after ++ k.plan.shape.pageText, by rw [hsql, hbody, String.append_assoc]⟩ }

end Compilation

/-- Requests for the same data in modes that are not over time compile to the same bindings and stages, and read the same
rows: their texts have the same durations in them, but for the column that a stack adds to the innermost select list, to
the select lists over it and to what they are grouped by. Only the columns that the formula makes of the durations and
the outer shape are a mode's own. -/
theorem Compiler.reads_of_sameData {c : Compiler} {r r' : Request} {q q' : CompiledQuery} (same : r.SameData r')
    (hr : r.query.across ≠ .trend) (hr' : r'.query.across ≠ .trend) (h : c.compile r = .ok q)
    (h' : c.compile r' = .ok q') :
    q'.bindings = q.bindings ∧ q'.stages = q.stages ∧
      ∃ p p' l, c.plan r = .ok p ∧ p.query = q ∧ c.plan r' = .ok p' ∧ p'.query = q' ∧
        p.Reads r.query l ∧ p'.Reads r'.query l := by
  obtain ⟨p, hp, rfl⟩ := Except.map_eq_ok.1 h
  obtain ⟨k, rfl⟩ := Compilation.of_plan hp
  obtain ⟨p', hp', rfl⟩ := Except.map_eq_ok.1 h'
  obtain ⟨k', rfl⟩ := Compilation.of_plan hp'
  have hself : k.plan.layers.SameRows k.plan.layers :=
    ⟨rfl, rfl, rfl, rfl, rfl, rfl, decide_eq_false hr⟩
  refine ⟨Compilation.bindings_eq_of_sameData k k' same hr hr', ?_, _, _, k.plan.layers, hp, rfl, hp', rfl,
    k.reads_of_sameRows hself, k'.reads_of_sameRows (Compilation.sameRows_of_sameData k k' same hr hr')⟩
  exact congrArg (fun p : Pipeline => StageMap.ofStages p.stages) (Compilation.pipeline_eq_of_sameData k k' same)

def Request.listing : Request :=
  { Request.delivery with
    query := { Query.standard with
      across := .values
      page := 1
      pageSize := some 10
      sort := .ofList [("build", .desc)]
      onlyApplicable := true
      ratings := [.slow] } }

theorem Request.isOk_plan_listing : ((⟨.standard, .criteria⟩ : Compiler).plan listing).isOk = true := by cbv

theorem Compiler.reads_listing : Request.delivery.SameData .listing ∧ Request.delivery.query.across ≠ .trend ∧
    Request.listing.query.across ≠ .trend ∧
    ∃ q q', (⟨.standard, .criteria⟩ : Compiler).compile .delivery = .ok q ∧
      (⟨.standard, .criteria⟩ : Compiler).compile .listing = .ok q' ∧
      q'.bindings = q.bindings ∧ q'.stages = q.stages ∧
      ∃ p p' l, (⟨.standard, .criteria⟩ : Compiler).plan .delivery = .ok p ∧ p.query = q ∧
        (⟨.standard, .criteria⟩ : Compiler).plan .listing = .ok p' ∧ p'.query = q' ∧
        p.Reads Request.delivery.query l ∧ p'.Reads Request.listing.query l := by
  have same : Request.delivery.SameData .listing := ⟨rfl, rfl, rfl, rfl, rfl, rfl, rfl⟩
  have hd : Request.delivery.query.across ≠ .trend := by decide
  have hl : Request.listing.query.across ≠ .trend := by decide
  obtain ⟨q, hq⟩ := exists_compile_eq_ok Request.isOk_plan_delivery
  obtain ⟨q', hq'⟩ := exists_compile_eq_ok Request.isOk_plan_listing
  exact ⟨same, hd, hl, q, q', hq, hq', reads_of_sameData same hd hl hq hq'⟩

end LeadTime
