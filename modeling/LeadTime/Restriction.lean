import LeadTime.Binding
import LeadTime.Request
import LeadTime.Sql.Expr
import LeadTime.Text.Quoted

/-! What a filter says of the rows of one table: predicates, each under the name it came from, and the values
that they bind. `FilterRules` leaves open how filters become restrictions; `FilterRules.criteria` takes each
criterion as a column and the values it may have. -/
namespace LeadTime

open Sql

structure Restriction where
  predicates : KeyMap Expr
  bindings : Bindings

namespace Restriction

def none : Restriction := ⟨.empty, .empty⟩

def isEmpty (r : Restriction) : Bool := r.predicates.isEmpty

def add (r : Restriction) (key : String) (predicate : Expr) (placeholder : String) (values : List String) :
    Restriction :=
  ⟨r.predicates.insert key predicate, r.bindings.insert placeholder (.textList values)⟩

end Restriction

/-- How filters become restrictions of a table that is read under a given name, or why they do not. -/
structure FilterRules where
  issues : IssueFilter → String → OrgUnit → Except String Restriction
  pullRequests : CodeFilter → String → OrgUnit → Except String Restriction
  commits : CodeFilter → String → OrgUnit → Except String Restriction
  jobRuns : JobRunFilter → String → OrgUnit → Except String Restriction

/-- What the key of a criterion asks for: a column, and whether its values are kept out. -/
structure Criterion where
  column : String
  excluded : Bool
  deriving DecidableEq, Repr

namespace Criterion

def exclusionMark : List Char := "exclude_".toList

def ofKey (key : String) : Criterion :=
  if exclusionMark.isPrefixOf key.toList then
    ⟨String.ofList (key.toList.drop exclusionMark.length), true⟩
  else ⟨key, false⟩

def isColumnChar (c : Char) : Bool := ('a' ≤ c ∧ c ≤ 'z') || ('0' ≤ c ∧ c ≤ '9') || c = '_'

/-- Columns are named by small letters, digits and underscores. -/
def isValid (c : Criterion) : Bool := !c.column.isEmpty && c.column.toList.all isColumnChar

def placeholder (c : Criterion) (tableAlias : String) : String :=
  tableAlias ++ (if c.excluded then "_excl_" else "_") ++ c.column

def predicate (c : Criterion) (tableAlias : String) : Expr :=
  if c.excluded then (Expr.column tableAlias c.column).notAmong (c.placeholder tableAlias)
  else (Expr.column tableAlias c.column).among (c.placeholder tableAlias)

end Criterion

namespace Restriction

/-- Adds a criterion; one without values says nothing. -/
def addCriterion (tableAlias : String) (r : Restriction) (criterion : String × List String) :
    Except String Restriction :=
  let c := Criterion.ofKey criterion.1
  if criterion.2.isEmpty then .ok r
  else if c.isValid then .ok (r.add criterion.1 (c.predicate tableAlias) (c.placeholder tableAlias) criterion.2)
  else .error ("invalid filter field name: " ++ Text.quote criterion.1)

/-- Adds that the user of a row belongs to the unit; a unit without users says nothing. -/
def addUnit (r : Restriction) (tableAlias userColumn : String) (unit : OrgUnit) : Restriction :=
  let placeholder := tableAlias ++ "_ou_user_ids"
  if unit.userIds.isEmpty then r
  else r.add "org_unit" ((Expr.column tableAlias userColumn).among placeholder) placeholder unit.userIds

def ofCriteria (userColumn : String) (criteria : KeyMap (List String)) (unitCounts : Bool)
    (tableAlias : String) (unit : OrgUnit) : Except String Restriction :=
  (criteria.entries.foldlM (addCriterion tableAlias) none).map fun r =>
    if unitCounts then r.addUnit tableAlias userColumn unit else r

end Restriction

def FilterRules.criteria : FilterRules where
  issues f := Restriction.ofCriteria "assignee_id" f.criteria f.orgUnitScoped
  pullRequests f := Restriction.ofCriteria "creator_id" f.criteria f.orgUnitScoped
  commits f := Restriction.ofCriteria "author_id" f.criteria f.orgUnitScoped
  jobRuns f := Restriction.ofCriteria "cicd_user_id" f.criteria f.orgUnitScoped

end LeadTime
