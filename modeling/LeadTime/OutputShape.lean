import LeadTime.Error
import LeadTime.Layers
import LeadTime.Pipeline
import LeadTime.Rating

/-! The outer shape of a query, one for each mode: statistics, a listing in pages, or counts of one stage. -/
namespace LeadTime

open Sql

/-- A page of a listing: how many rows, after how many. -/
structure Page where
  limit : Nat
  offset : Nat
  deriving DecidableEq, Repr

namespace Page

/-- The page of this number, from zero, with `size` rows a page. -/
def new (number size : Nat) : Except Error Page :=
  if size = 0 then .error .emptyPage
  else if number * size < 0x10000000000000000 then .ok ⟨size, number * size⟩
  else .error (.pageOutOfRange number size)

def tokens (p : Page) : List Token :=
  [.fixed ("LIMIT " ++ toString p.limit ++ " OFFSET " ++ toString p.offset)]

end Page

inductive OutputShape where
  | velocity
  | trend
  | stack
  /-- A page of rows; with ratings, only the rows of which one condition holds. -/
  | values (orderBy : List OrderTerm) (page : Page) (ratings : Option (List Expr))
  /-- Rows by the time of a stage, in buckets of one width up to `stop`. -/
  | histogram (stage stop buckets : Nat)
  | rating (stage : Nat) (thresholds : Thresholds)

namespace OutputShape

def stageStatistics (stage : Nat) : List Projection :=
  let column := durationColumn stage
  let time := Expr.name column
  [.named (.percentile "0.5" time) (column ++ "_median"), .named (.percentile "0.9" time) (column ++ "_p90"),
    .named (.percentile "0.95" time) (column ++ "_p95"), .named (.call "AVG" time) (column ++ "_mean"),
    .named (.call "COUNT" time) (column ++ "_count")]

/-- The statistics of every stage; an empty item where there is no stage. -/
def statistics : Nat → List Projection
  | 0 => [.blank]
  | stages => (List.range stages).flatMap stageStatistics

def counted : Projection := .named (.call "COUNT" .star) "cnt"

def bucketWidth (stage stop buckets : Nat) : Expr :=
  .apply "WIDTH_BUCKET" [.name (durationColumn stage), .number 0, .number stop, .number buckets]

def byColumn (column : String) : OrderTerm := ⟨.name column, none, false⟩

def layers (stages : Nat) : OutputShape → List Layer
  | .velocity => [.over (statistics stages) "enrich"]
  | .trend => [⟨.name "trend" :: statistics stages, "enrich", none, ["trend"], some [byColumn "trend"]⟩]
  | .stack => [⟨.name "stack" :: statistics stages, "enrich", none, ["stack"], none⟩]
  | .values orderBy _ ratings =>
    ⟨[.all none], "enrich", none, [], some orderBy⟩ ::
      ratings.toList.map fun conditions => ⟨[.all none], "histo", some (.anyOf conditions), [], none⟩
  | .histogram stage stop buckets =>
    let time := Expr.name (durationColumn stage)
    [⟨[.named (.call "MIN" time) "min", .named (.call "MAX" time) "max",
        .named (bucketWidth stage stop buckets) "bucket", counted],
      "histo", none, ["bucket"], some [byColumn "bucket"]⟩]
  | .rating stage thresholds =>
    [⟨[.named (thresholds.bucket stage) "rating", counted], "histo", none, ["rating"], none⟩]

def page? : OutputShape → Option Page
  | .values _ page _ => some page
  | _ => none

def body (shape : OutputShape) (stages : Nat) (inner : List Token) : List Token :=
  stacked (shape.layers stages) inner

def tokens (shape : OutputShape) (stages : Nat) (inner : List Token) : List Token :=
  shape.body stages inner ++
    match shape.page? with
    | none => []
    | some page => .fixed "\n" :: page.tokens

def countLayer : Layer := .over [.unnamed (.call "COUNT" .star)] "counted"

/-- The query that counts the rows of a listing over all pages. -/
def countTokens (shape : OutputShape) (stages : Nat) (inner : List Token) : Option (List Token) :=
  shape.page?.map fun _ => countLayer.tokens (shape.body stages inner)

end OutputShape

namespace SortOrder

def keyword : SortOrder → String
  | .asc => "ASC"
  | .desc => "DESC"

end SortOrder

/-- The order of a listing, and the sort keys that were left aside. -/
structure ListingOrder where
  terms : List OrderTerm
  warnings : List Warning

namespace ListingOrder

def totalKeys : List String := ["total", "data"]

def byValue (column : String) (order : SortOrder) : OrderTerm := ⟨.name column, some order.keyword, true⟩

def byTotal (order : SortOrder) : List OrderTerm :=
  [byValue "t" order, ⟨.name "u_id", some SortOrder.desc.keyword, false⟩]

/-- The terms of one sort key: a stage's name comes before the words for the total. -/
def ofKey (p : Pipeline) (key : String × SortOrder) : ListingOrder :=
  match p.stageIndex? key.1 with
  | some stage => ⟨[byValue (durationColumn stage) key.2], []⟩
  | none =>
    if key.1 ∈ totalKeys then ⟨byTotal key.2, []⟩ else ⟨[], [.ignoredSortKey key.1 p.name]⟩

/-- The order that the query's sort keys ask for; the greatest total first when none does. -/
def ofQuery (q : Query) (p : Pipeline) : ListingOrder :=
  let parts := q.sort.entries.map (ofKey p)
  let terms := parts.flatMap ListingOrder.terms
  ⟨if terms.isEmpty then byTotal .desc else terms, parts.flatMap ListingOrder.warnings⟩

end ListingOrder

end LeadTime
