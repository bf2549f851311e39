import LeadTime.Sql.Select
import Mathlib

/-! What is seen of a query, such as its placeholders and its tables, computed along the way the query is put together:
token by token, then over the trees of expressions and selects. Separators and words of the language add nothing. -/
namespace LeadTime.Sql

attribute [simp] Token.placeholder? Token.table?

namespace View

variable {α : Type} (v : View α)

@[simp] theorem see_fixed (s : String) : v.see? (.fixed s) = none := v.fixed s

@[simp] theorem see_placeholders (t : Token) : placeholders.see? t = t.placeholder? := rfl

@[simp] theorem see_tables (t : Token) : tables.see? t = t.table? := rfl

@[simp] theorem of_nil : v.of [] = [] := rfl

@[simp] theorem of_cons (t : Token) (rest : List Token) : v.of (t :: rest) = (v.see? t).toList ++ v.of rest := by
  cases h : v.see? t <;> simp [of, h]

@[simp] theorem of_append (left right : List Token) : v.of (left ++ right) = v.of left ++ v.of right :=
  List.filterMap_append

@[simp] theorem of_separated (separator : String) (parts : List (List Token)) :
    v.of (separated separator parts) = parts.flatMap v.of := by
  induction parts with
  | nil => rfl
  | cons part rest ih =>
    cases rest with
    | nil => simp [separated]
    | cons next rest => simp [separated, ih]

@[simp] theorem of_flatMap {β : Type} (f : β → List Token) (items : List β) :
    v.of (items.flatMap f) = items.flatMap fun b => v.of (f b) := by
  induction items with
  | nil => rfl
  | cons b rest ih => simp [ih]

end View

variable {α : Type} (v : View α)

namespace Expr

section Trees

attribute [local simp] seen tokens

variable (e l r : Expr) (s t : String) (op : Operator)

@[simp] theorem seen_null : null.seen v = [] := by simp
@[simp] theorem seen_now : now.seen v = [] := by simp
@[simp] theorem seen_star : star.seen v = [] := by simp
@[simp] theorem seen_number (n : Int) : (number n).seen v = [] := by simp
@[simp] theorem seen_quoted : (quoted s).seen v = (v.see? (.quoted s)).toList := by simp
@[simp] theorem seen_name : (name s).seen v = (v.see? (.name s)).toList := by simp
@[simp] theorem seen_column : (column t s).seen v = (v.see? (.column t s)).toList := by simp
@[simp] theorem seen_placeholder : (placeholder s).seen v = (v.see? (.placeholder s)).toList := by simp
@[simp] theorem seen_verbatim : (verbatim s).seen v = (v.see? (.verbatim s)).toList := by simp
@[simp] theorem seen_call : (call s e).seen v = e.seen v := by simp
@[simp] theorem seen_group : (group e).seen v = e.seen v := by simp
@[simp] theorem seen_binary : (binary op l r).seen v = l.seen v ++ r.seen v := by simp
@[simp] theorem seen_isNull : (isNull e).seen v = e.seen v := by simp
@[simp] theorem seen_isNotNull : (isNotNull e).seen v = e.seen v := by simp
@[simp] theorem seen_cast : (cast e s).seen v = e.seen v := by simp
@[simp] theorem seen_epoch : (epoch e).seen v = e.seen v := by simp
@[simp] theorem seen_percentile : (percentile s e).seen v = e.seen v := by simp
@[simp] theorem seen_choice : (choice e).seen v = e.seen v := by simp
@[simp] theorem seen_arm : (arm l r e).seen v = l.seen v ++ r.seen v ++ e.seen v := by simp
@[simp] theorem seen_otherwise : (otherwise e).seen v = e.seen v := by simp

end Trees

@[simp] theorem of_tokens (e : Expr) : v.of e.tokens = e.seen v := rfl

/-- No operands come to no text, of which nothing may be seen. -/
theorem seen_chain (op : Operator) {es : List Expr} (h : es = [] → v.see? (.verbatim "") = none) :
    (chain op es).seen v = es.flatMap (seen v) := by
  induction es with
  | nil => simp [chain, h rfl]
  | cons e rest ih =>
    cases rest with
    | nil => simp [chain]
    | cons next rest => simp [chain, ih]

@[simp] theorem placeholders_chain (op : Operator) (es : List Expr) :
    (chain op es).placeholders = es.flatMap placeholders := seen_chain _ op fun _ => rfl

@[simp] theorem tables_chain (op : Operator) (es : List Expr) :
    (chain op es).tables = es.flatMap tables := seen_chain _ op fun _ => rfl

attribute [simp] anyOf apply whenever equal same among notAmong amongTexts

end Expr

namespace Projection

variable (e : Expr) (s t : String)

@[simp] theorem of_name : v.of (name s).tokens = (v.see? (.name s)).toList := by simp [tokens]
@[simp] theorem of_column : v.of (column t s).tokens = (v.see? (.column t s)).toList := by simp [tokens]
@[simp] theorem of_named : v.of (named e s).tokens = e.seen v ++ (v.see? (.name s)).toList := by simp [tokens]
@[simp] theorem of_all_none : v.of (all none).tokens = [] := by simp [tokens]
@[simp] theorem of_all_some : v.of (all (some t)).tokens = (v.see? (.column t "*")).toList := by simp [tokens]
@[simp] theorem of_unnamed : v.of (unnamed e).tokens = e.seen v := rfl
@[simp] theorem of_blank : v.of blank.tokens = [] := rfl

end Projection

namespace View

variable (keyword : String) (items : List Projection) (conditions : List Expr)

@[simp] theorem of_selectList : v.of (selectList items) = items.flatMap fun i => v.of i.tokens := by
  simp [selectList, List.flatMap_map]

@[simp] theorem of_onAll : v.of (onAll conditions) = conditions.flatMap (Expr.seen v) := by
  simp [onAll, List.flatMap_map]

@[simp] theorem of_whereAll : v.of (whereAll keyword conditions) = conditions.flatMap (Expr.seen v) := by
  cases conditions <;> simp [whereAll, List.flatMap_map]

structure SkipsNames : Prop where
  name : ∀ s, v.see? (.name s) = none
  verbatim : ∀ s, v.see? (.verbatim s) = none

@[simp] theorem skipsNames_placeholders : placeholders.SkipsNames := ⟨fun _ => rfl, fun _ => rfl⟩

@[simp] theorem skipsNames_tables : tables.SkipsNames := ⟨fun _ => rfl, fun _ => rfl⟩

@[simp] theorem of_source_select (s : TableSelect) : v.of (Source.select s).tokens = v.of s.tokens := by
  simp [Source.tokens]

@[simp] theorem of_source_paired (s : PairedSelect) : v.of (Source.paired s).tokens = v.of s.tokens := by
  simp [Source.tokens]

section Selects

variable {v} (h : v.SkipsNames)

include h

@[simp] theorem of_table (t : Table) : v.of t.tokens = [] := by simp [Table.tokens, h.name, h.verbatim]

@[simp] theorem of_tableJoin (j : TableJoin) : v.of j.tokens = j.on.flatMap (Expr.seen v) := by
  simp [TableJoin.tokens, h, h.name]

@[simp] theorem of_tableSelect (s : TableSelect) :
    v.of s.tokens = s.items.flatMap (fun i => v.of i.tokens) ++ s.joins.flatMap (fun j => j.on.flatMap (Expr.seen v)) ++
      s.conditions.flatMap (Expr.seen v) := by
  cases hs : s.as <;> simp [TableSelect.tokens, hs, h, h.name]

@[simp] theorem of_pairedSelect (s : PairedSelect) :
    v.of s.tokens = s.items.flatMap (fun i => v.of i.tokens) ++ v.of s.left.tokens ++ v.of s.right.tokens ++
      s.on.flatMap (Expr.seen v) := by
  simp [PairedSelect.tokens, h, h.name]

@[simp] theorem of_source_table (t : Table) : v.of (Source.table t).tokens = [] := of_table h t

@[simp] theorem of_join (side : Side) (source : Source) (as : String) (on : List Expr) :
    v.of (JoinLine.join side source as on).tokens = v.of source.tokens ++ on.flatMap (Expr.seen v) := by
  simp [JoinLine.tokens, h.name]

end Selects

end View
end LeadTime.Sql
