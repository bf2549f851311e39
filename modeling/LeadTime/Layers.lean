import LeadTime.Join.Registry
import LeadTime.StageEvent

/-! The inner layers of a query. `base` reads one row for each way of joining, with a time for every stage;
`reduce` keeps one row for each anchor; `durations` takes the seconds between stages; `enrich` makes them
reportable and adds the total. -/
namespace LeadTime

open Sql

def eventColumn (stage : Nat) : String := "e" ++ toString stage

def durationColumn (stage : Nat) : String := "s" ++ toString stage

def startColumn : String := "estart"

/-- What becomes of a stage that an anchor did not reach. -/
inductive Formula where
  /-- It counts as no time. -/
  | zeroFloor
  /-- It stays without a value, and out of every statistic. -/
  | nullPreserving
  deriving DecidableEq, Repr

namespace Formula

def ofQuery (q : Query) : Formula :=
  if q.across.isAggregate && !q.onlyApplicable then .zeroFloor else .nullPreserving

def floored (e : Expr) : Expr := .apply "GREATEST" [e, .number 0]

/-- The reported seconds of a stage, never negative. Without a value both operands of the second form are
without one, and so is the greatest of them. -/
def expression (stage : Nat) : Formula → Expr
  | .zeroFloor => floored (.name (durationColumn stage))
  | .nullPreserving =>
    let time := Expr.name (durationColumn stage)
    let kept := Expr.group (.binary .plus time (.number 0))
    .apply "GREATEST" [.binary .minus kept (.number 0), .binary .minus kept time]

end Formula

/-- A stage's time, and which of several counts. -/
structure StageColumn where
  timestamp : Expr
  aggregate : Aggregate
  deriving DecidableEq

/-- The seconds of a stage: from the nearest earlier stage that was reached, else from the start. The first
stage counts in both directions. -/
def duration : Nat → Projection
  | 0 =>
    .named (.call "ABS" (.epoch (.binary .minus (.name (eventColumn 0)) (.name startColumn))))
      (durationColumn 0)
  | stage + 1 =>
    let earlier := ((List.range (stage + 1)).reverse.map eventColumn ++ [startColumn]).map Expr.name
    .named (.epoch (.binary .minus (.name (eventColumn (stage + 1))) (.apply "COALESCE" earlier)))
      (durationColumn (stage + 1))

structure Layers where
  anchor : Anchor
  source : From
  chain : List Token
  conditions : List Expr
  start : Expr
  stages : List StageColumn
  trend : Bool
  stack : Option Expr
  formula : Formula

namespace Layers

def groupColumns (l : Layers) : List String :=
  l.anchor.identityColumns ++ (if l.trend then ["trend"] else []) ++ if l.stack.isSome then ["stack"] else []

def groups (l : Layers) : List Projection := l.groupColumns.map .name

def baseItems (l : Layers) : List Projection :=
  l.anchor.identity.map (fun column => .named column.1 column.2) ++
    (if l.trend then [.named l.anchor.trend "trend"] else []) ++
    (l.stack.toList.map fun e => .named e "stack") ++
    .named l.start startColumn ::
      l.stages.zipIdx.map fun (column, stage) => .named column.timestamp (eventColumn stage)

def base (l : Layers) : List Token :=
  selectList l.baseItems ++ .fixed " FROM " :: l.source.tokens ++
    (if l.chain.isEmpty then [] else .fixed "\n" :: l.chain) ++ whereAll "\nWHERE " l.conditions

def aggregated (aggregate : Aggregate) (column : String) : Projection :=
  .named (.call aggregate.function (.name column)) column

def reduce (l : Layers) : Layer where
  items := l.groups ++ aggregated .min startColumn ::
    l.stages.zipIdx.map fun (column, stage) => aggregated column.aggregate (eventColumn stage)
  as := "base"
  condition := none
  groupBy := l.groupColumns
  orderBy := none

def indices (l : Layers) : List Nat := List.range l.stages.length

def durations (l : Layers) : Layer := .over (l.groups ++ l.indices.map duration) "reduce"

/-- The time of all stages together, none of them negative. -/
def total (l : Layers) : Expr :=
  .group (.chain .plus (l.indices.map fun stage => Formula.floored (.name (durationColumn stage))))

def enriched (l : Layers) : Layer :=
  .over
    (l.groups ++ (l.indices.map fun stage => .named (l.formula.expression stage) (durationColumn stage)) ++
      [.named l.total "t"])
    "durations"

def durationTokens (l : Layers) : List Token := stacked [l.reduce, l.durations] l.base

/-- The query before its outer shape. -/
def tokens (l : Layers) : List Token := l.enriched.tokens l.durationTokens

end Layers
end LeadTime
