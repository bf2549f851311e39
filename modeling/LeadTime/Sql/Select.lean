import LeadTime.Sql.Expr

/-! Selects, the joins between their tables, and the layers that wrap one select in the next. -/
namespace LeadTime.Sql

inductive Projection where
  /-- A column of the layer beneath, under its own name. -/
  | name (column : String)
  | column (table name : String)
  | named (value : Expr) (name : String)
  /-- Every column of a table, or of the layer beneath. -/
  | all (table : Option String)
  | unnamed (value : Expr)
  | blank
  deriving DecidableEq, Repr

def Projection.tokens : Projection → List Token
  | .name c => [.name c]
  | .column t c => [.column t c]
  | .named e n => e.tokens ++ [.fixed " AS ", .name n]
  | .all none => [.fixed "*"]
  | .all (some t) => [.column t "*"]
  | .unnamed e => e.tokens
  | .blank => []

def Projection.text (p : Projection) : String := Sql.text p.tokens

def selectList (items : List Projection) : List Token :=
  .fixed "SELECT " :: separated ", " (items.map Projection.tokens)

/-- Conditions that must all hold, after ` WHERE `; nothing when there are none. -/
def whereAll (keyword : String) : List Expr → List Token
  | [] => []
  | conditions => .fixed keyword :: separated " AND " (conditions.map Expr.tokens)

structure Table where
  schema : String
  name : String
  deriving DecidableEq, Repr

def Table.tokens (t : Table) : List Token := [.verbatim t.schema, .fixed ".", .name t.name]

inductive Side where
  | left
  | inner
  /-- Inner, without the word. -/
  | plain
  deriving DecidableEq, Repr

def Side.text : Side → String
  | .left => "LEFT JOIN "
  | .inner => "INNER JOIN "
  | .plain => "JOIN "

def onAll (conditions : List Expr) : List Token :=
  .fixed " ON " :: separated " AND " (conditions.map Expr.tokens)

/-- A table joined under a name, on conditions that must all hold. -/
structure TableJoin where
  side : Side
  table : Table
  as : String
  on : List Expr
  deriving DecidableEq, Repr

def TableJoin.tokens (j : TableJoin) : List Token :=
  .fixed j.side.text :: j.table.tokens ++ [.fixed " AS ", .name j.as] ++ onAll j.on

/-- A select over tables only. -/
structure TableSelect where
  items : List Projection
  table : Table
  as : Option String
  joins : List TableJoin
  conditions : List Expr
  deriving DecidableEq, Repr

def TableSelect.tokens (s : TableSelect) : List Token :=
  selectList s.items ++ .fixed " FROM " :: s.table.tokens ++
    (match s.as with
      | none => []
      | some name => [.fixed " AS ", .name name]) ++
    s.joins.flatMap (fun j => .fixed " " :: j.tokens) ++ whereAll " WHERE " s.conditions

def TableSelect.introduced (s : TableSelect) : List String := s.as.toList ++ s.joins.map (·.as)

structure PairedSelect where
  items : List Projection
  left : TableSelect
  leftAs : String
  right : TableSelect
  rightAs : String
  on : List Expr
  deriving DecidableEq, Repr

def PairedSelect.tokens (s : PairedSelect) : List Token :=
  selectList s.items ++ .fixed " FROM (" :: s.left.tokens ++ [.fixed ") AS ", .name s.leftAs] ++
    .fixed " INNER JOIN (" :: s.right.tokens ++ [.fixed ") AS ", .name s.rightAs] ++ onAll s.on

inductive Source where
  | table (table : Table)
  | select (select : TableSelect)
  | paired (select : PairedSelect)
  deriving DecidableEq, Repr

def Source.tokens : Source → List Token
  | .table t => t.tokens
  | .select s => .fixed "(" :: s.tokens ++ [.fixed ")"]
  | .paired s => .fixed "(" :: s.tokens ++ [.fixed ")"]

inductive JoinLine where
  | join (side : Side) (source : Source) (as : String) (on : List Expr)
  | verbatim (text : String)
  deriving DecidableEq, Repr

namespace JoinLine

def tokens : JoinLine → List Token
  | .join side source as on =>
    .fixed side.text :: source.tokens ++ [.fixed " AS ", .name as] ++ onAll on
  | .verbatim text => [.verbatim text]

/-- The name that the line gives to what it joins. -/
def introduced? : JoinLine → Option String
  | .join _ _ as _ => some as
  | .verbatim _ => none

def conditions : JoinLine → List Expr
  | .join _ _ _ on => on
  | .verbatim _ => []

def leftTable (table : Table) (as : String) (on : List Expr) : JoinLine := .join .left (.table table) as on

end JoinLine

/-- The table that a FROM chain starts at. -/
inductive From where
  | table (table : Table) (as : String)
  | verbatim (text : String)
  deriving DecidableEq, Repr

def From.tokens : From → List Token
  | .table t as => t.tokens ++ [.fixed " AS ", .name as]
  | .verbatim text => [.verbatim text]

structure OrderTerm where
  key : Expr
  /-- The direction in capitals, if one is written. -/
  direction : Option String
  nullsLast : Bool
  deriving DecidableEq, Repr

def OrderTerm.tokens (o : OrderTerm) : List Token :=
  o.key.tokens ++
    (match o.direction with
      | none => []
      | some d => [.fixed (" " ++ d)]) ++
    if o.nullsLast then [.fixed " NULLS LAST"] else []

def OrderTerm.text (o : OrderTerm) : String := Sql.text o.tokens

/-- A select over another one, which it names. -/
structure Layer where
  items : List Projection
  as : String
  condition : Option Expr
  groupBy : List String
  orderBy : Option (List OrderTerm)
  deriving DecidableEq, Repr

def Layer.over (items : List Projection) (as : String) : Layer := ⟨items, as, none, [], none⟩

def Layer.tokens (l : Layer) (inner : List Token) : List Token :=
  selectList l.items ++ .fixed " FROM (\n" :: inner ++ [.fixed "\n) AS ", .name l.as] ++
    (match l.condition with
      | none => []
      | some c => .fixed " WHERE " :: c.tokens) ++
    (match l.groupBy with
      | [] => []
      | columns => .fixed " GROUP BY " :: separated ", " (columns.map fun c => [.name c])) ++
    (match l.orderBy with
      | none => []
      | some terms => .fixed " ORDER BY " :: separated ", " (terms.map OrderTerm.tokens))

/-- The tokens of a select under layers, the first of which is the innermost. -/
def stacked (layers : List Layer) (inner : List Token) : List Token :=
  layers.foldl (fun tokens layer => layer.tokens tokens) inner

end LeadTime.Sql
