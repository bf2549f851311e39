import LeadTime.Sql.Select
import LeadTime.Proofs.Sql.Leaves
import Mathlib

/-! The columns that a layer gives and those that it reads. A layer is closed over the columns beneath it when it reads no
others, names no table of its own, and gives no name twice. -/
namespace LeadTime.Sql

/-- What is read: a column, a placeholder, or text that was handed in. Words of the language and quoted texts read
nothing. -/
def Token.read? : Token → Option Token
  | .fixed _ | .quoted _ => none
  | t => some t

attribute [simp] Token.read?

def View.reads : View Token := ⟨Token.read?, fun _ => rfl⟩

@[simp] theorem View.see_reads (t : Token) : View.reads.see? t = t.read? := rfl

abbrev reads (tokens : List Token) : List Token := View.reads.of tokens

namespace Expr

abbrev reads (e : Expr) : List Token := e.seen .reads

theorem reads_chain (op : Operator) {es : List Expr} (h : es ≠ []) : (chain op es).reads = es.flatMap reads :=
  seen_chain _ op fun hnil => absurd hnil h

theorem reads_apply (f : String) {es : List Expr} (h : es ≠ []) : (apply f es).reads = es.flatMap reads :=
  (seen_call ..).trans (reads_chain .comma h)

theorem reads_names (columns : List String) : (columns.map name).flatMap reads = columns.map .name := by
  rw [List.flatMap_map]
  exact List.flatMap_pure_eq_map _ columns

theorem reads_anyOf {es : List Expr} (h : es ≠ []) : (anyOf es).reads = es.flatMap reads :=
  (seen_group ..).trans (reads_chain .or h)

def Qualified (e : Expr) : Prop := ∀ c, Token.name c ∉ e.reads

theorem qualified_apply (f : String) {es : List Expr} (hne : es ≠ []) (h : ∀ e ∈ es, e.Qualified) :
    (apply f es).Qualified := by
  intro c hc
  rw [reads_apply f hne] at hc
  obtain ⟨e, he, hc⟩ := List.mem_flatMap.1 hc
  exact h e he c hc

end Expr

namespace Projection

/-- What an item reads, but for the columns that it takes over as a whole. -/
def reads : Projection → List Token
  | .name c => [.name c]
  | .column t c => [.column t c]
  | .named e _ | .unnamed e => e.reads
  | .all none | .blank => []
  | .all (some t) => [.column t "*"]

/-- The names that an item gives, over these columns beneath. -/
def gives (beneath : List String) : Projection → List String
  | .name c | .column _ c | .named _ c => [c]
  | .all none => beneath
  | .all (some _) | .unnamed _ | .blank => []

end Projection

def columnsOf (items : List Projection) (beneath : List String) : List String := items.flatMap (·.gives beneath)

@[simp] theorem columnsOf_append (items more : List Projection) (beneath : List String) :
    columnsOf (items ++ more) beneath = columnsOf items beneath ++ columnsOf more beneath := List.flatMap_append

@[simp] theorem columnsOf_cons (i : Projection) (rest : List Projection) (beneath : List String) :
    columnsOf (i :: rest) beneath = i.gives beneath ++ columnsOf rest beneath := rfl

@[simp] theorem columnsOf_nil (beneath : List String) : columnsOf [] beneath = [] := rfl

theorem columnsOf_map {α : Type} {item : α → Projection} {values : List α} (column : α → String) (beneath : List String)
    (h : ∀ a ∈ values, (item a).gives beneath = [column a]) : columnsOf (values.map item) beneath = values.map column := by
  rw [columnsOf, List.flatMap_map, List.flatMap_congr h]
  exact List.flatMap_pure_eq_map column values

namespace Layer

def columns (l : Layer) (beneath : List String) : List String := columnsOf l.items beneath

/-- The layer reads columns of the layer beneath, and gives no name twice. Rows may also be grouped and ordered by
one of the columns `own` that the layer makes itself, which stands for nothing beneath. -/
structure Closed (own beneath : List String) (l : Layer) : Prop where
  items : ∀ i ∈ l.items, i.reads ⊆ beneath.map .name
  condition : ∀ c ∈ l.condition, c.reads ⊆ beneath.map .name
  groups : ∀ c ∈ l.groupBy, c ∈ beneath ∨ c ∈ own ∧ c ∈ l.columns beneath ∧ c ∉ beneath
  order : ∀ terms ∈ l.orderBy, ∀ o ∈ terms, o.key.reads ⊆ beneath.map .name ∨
    ∃ c ∈ own, o.key = .name c ∧ c ∈ l.columns beneath ∧ c ∉ beneath
  nodup : (l.columns beneath).Nodup

theorem closed_over {own beneath : List String} {items : List Projection} (as : String)
    (hreads : ∀ i ∈ items, i.reads ⊆ beneath.map .name) (hnodup : ((Layer.over items as).columns beneath).Nodup) :
    (Layer.over items as).Closed own beneath where
  items := hreads
  condition := by simp [Layer.over]
  groups := by simp [Layer.over]
  order := by simp [Layer.over]
  nodup := hnodup

end Layer

theorem name_subset {beneath : List String} {c : String} (h : c ∈ beneath) : [Token.name c] ⊆ beneath.map .name :=
  List.cons_subset.2 ⟨List.mem_map_of_mem h, List.nil_subset _⟩

def columnsThrough (beneath : List String) (layers : List Layer) : List String :=
  layers.foldl (fun columns l => l.columns columns) beneath

def ClosedOver (own beneath : List String) : List Layer → Prop
  | [] => True
  | l :: rest => l.Closed own beneath ∧ ClosedOver own (l.columns beneath) rest

theorem closedOver_append {own beneath : List String} {layers more : List Layer} :
    ClosedOver own beneath (layers ++ more) ↔
      ClosedOver own beneath layers ∧ ClosedOver own (columnsThrough beneath layers) more := by
  induction layers generalizing beneath with
  | nil => simp [ClosedOver, columnsThrough]
  | cons l rest ih =>
    rw [List.cons_append, ClosedOver, ClosedOver, ih, and_assoc]
    rfl

end LeadTime.Sql
