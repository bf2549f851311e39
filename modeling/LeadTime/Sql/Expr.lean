import LeadTime.Sql.Token

/-! Expressions and conditions of a query as trees, and their tokens. -/
namespace LeadTime.Sql

/-- What stands between two operands, with the blanks around it. -/
inductive Operator where
  | and
  | or
  | comma
  | plus
  | minus
  | equal
  | greater
  | less
  | atMost
  | isIn
  | notIn
  | overlaps
  | matchesPattern
  | like
  | includes
  /-- A member of a document, as a document. -/
  | member
  /-- A member of a document, as text. -/
  | memberText
  /-- A member of a document, as text, in a select list. -/
  | attribute
  deriving DecidableEq, Repr

def Operator.text : Operator → String
  | .and => " AND "
  | .or => " OR "
  | .comma => ", "
  | .plus => " + "
  | .minus => " - "
  | .equal => " = "
  | .greater => " > "
  | .less => " < "
  | .atMost => " <= "
  | .isIn => " IN "
  | .notIn => " NOT IN "
  | .overlaps => " && "
  | .matchesPattern => " ~ "
  | .like => " LIKE "
  | .includes => " @> "
  | .member => "->"
  | .memberText => "->>"
  | .attribute => " ->> "

inductive Expr where
  | null
  | now
  | star
  | number (value : Int)
  | quoted (text : String)
  /-- A column of the layer beneath. -/
  | name (column : String)
  | column (table name : String)
  | placeholder (name : String)
  | verbatim (text : String)
  | call (function : String) (arguments : Expr)
  | group (inner : Expr)
  | binary (operator : Operator) (left right : Expr)
  | isNull (inner : Expr)
  | isNotNull (inner : Expr)
  | cast (inner : Expr) (type : String)
  /-- The seconds of a time or of a difference of times. -/
  | epoch (inner : Expr)
  /-- The value below which `fraction` of the values lie. -/
  | percentile (fraction : String) (inner : Expr)
  /-- A choice between arms, which `arm` and `otherwise` make. -/
  | choice (arms : Expr)
  | arm (condition value rest : Expr)
  | otherwise (value : Expr)
  deriving DecidableEq, Repr

namespace Expr

def tokens : Expr → List Token
  | .null => [.fixed "NULL"]
  | .now => [.fixed "now()"]
  | .star => [.fixed "*"]
  | .number n => [.fixed (toString n)]
  | .quoted s => [.quoted s]
  | .name c => [.name c]
  | .column t c => [.column t c]
  | .placeholder p => [.placeholder p]
  | .verbatim s => [.verbatim s]
  | .call f a => .fixed (f ++ "(") :: a.tokens ++ [.fixed ")"]
  | .group e => .fixed "(" :: e.tokens ++ [.fixed ")"]
  | .binary op l r => l.tokens ++ .fixed op.text :: r.tokens
  | .isNull e => e.tokens ++ [.fixed " IS NULL"]
  | .isNotNull e => e.tokens ++ [.fixed " IS NOT NULL"]
  | .cast e type => e.tokens ++ [.fixed ("::" ++ type)]
  | .epoch e => .fixed "EXTRACT(EPOCH FROM (" :: e.tokens ++ [.fixed "))"]
  | .percentile f e =>
    .fixed ("PERCENTILE_CONT(" ++ f ++ ") WITHIN GROUP (ORDER BY ") :: e.tokens ++ [.fixed ")"]
  | .choice arms => .fixed "CASE" :: arms.tokens ++ [.fixed " END"]
  | .arm c v rest =>
    .fixed " WHEN " :: c.tokens ++ .fixed " THEN " :: v.tokens ++ rest.tokens
  | .otherwise v => .fixed " ELSE " :: v.tokens

def text (e : Expr) : String := Sql.text e.tokens

/-- Operands with one operator between each two. -/
def chain (operator : Operator) : List Expr → Expr
  | [] => .verbatim ""
  | [e] => e
  | e :: rest => .binary operator e (chain operator rest)

/-- Conditions of which one must hold, in brackets. -/
def anyOf (conditions : List Expr) : Expr := .group (chain .or conditions)

def apply (function : String) (arguments : List Expr) : Expr := .call function (chain .comma arguments)

/-- `value` where the condition holds, else nothing. -/
def whenever (condition value : Expr) : Expr := .choice (.arm condition value (.otherwise .null))

def equal (left right : Expr) : Expr := .binary .equal left right

def same (table name table' name' : String) : Expr := equal (.column table name) (.column table' name')

def among (e : Expr) (placeholder : String) : Expr :=
  .binary .isIn e (.group (.placeholder placeholder))

def notAmong (e : Expr) (placeholder : String) : Expr :=
  .binary .notIn e (.group (.placeholder placeholder))

def amongTexts (e : Expr) (texts : List String) : Expr :=
  .binary .isIn e (.group (chain .comma (texts.map .quoted)))

def seen {α : Type} (v : View α) (e : Expr) : List α := v.of e.tokens

abbrev placeholders (e : Expr) : List String := e.seen .placeholders

/-- The tables that the expression reads from. -/
abbrev tables (e : Expr) : List String := e.seen .tables

end Expr
end LeadTime.Sql
