import LeadTime.KeyMap
import LeadTime.Sql.Expr

/-! Values bound to the placeholders of a query, the names of the placeholders, and conditions together with the values
that they bind. Names of one stage carry its index, so that stages never share one. -/
namespace LeadTime

inductive ParamValue where
  | bool (value : Bool)
  | int (value : Int64)
  | intList (values : List Int64)
  | text (value : String)
  | textList (values : List String)
  deriving DecidableEq, Repr

/-- Placeholder names and their values, in order of first binding. -/
abbrev Bindings := KeyMap ParamValue

namespace Placeholder

def codeIntegrationIds : String := "integration_ids"
def issueIntegrationIds : String := "jira_integration_ids"
def trendKeys : String := "value_trend_keys"
def stackValues : String := "value_stacks"
def sprintStates : String := "sprint_states"
def isActive : String := "is_active"
def startingEventTypes : String := "starting_generic_event_types"

/-- The values of a stage's event. -/
def value (stage : Nat) : String := "s" ++ toString stage ++ "_value"

def indexedValue (stage index : Nat) : String := value stage ++ "_" ++ toString index

def name (stage index : Nat) : String := "s" ++ toString stage ++ "_name_" ++ toString index

def endTimeStart (stage : Nat) : String := "s" ++ toString stage ++ "_job_run_end_start"

def endTimeStop (stage : Nat) : String := "s" ++ toString stage ++ "_job_run_end_end"

/-- One value of a metadata field. -/
def metadataValue (stage field index : Nat) : String :=
  toString stage ++ "_metadatafield" ++ toString field ++ "_val" ++ toString index

/-- The second use of one value of a metadata field. -/
def metadataOther (stage field index : Nat) : String := metadataValue stage field index ++ "_val1"

/-- A pattern on a metadata field. -/
def metadataPattern (stage : Nat) (field operator : String) : String :=
  "metadata" ++ field ++ "_" ++ operator ++ "__" ++ toString stage

def field (stage : Nat) (field : String) : String := field ++ "__" ++ toString stage

def excluded (stage : Nat) (field : String) : String := "excl_" ++ field ++ "__" ++ toString stage

end Placeholder

/-- Conditions and the values bound to their placeholders. -/
structure Terms where
  conditions : List Sql.Expr
  bindings : List (String × ParamValue)
  deriving DecidableEq

namespace Terms

def none : Terms := ⟨[], []⟩

def append (a b : Terms) : Terms := ⟨a.conditions ++ b.conditions, a.bindings ++ b.bindings⟩

instance : Append Terms := ⟨append⟩

def all : List Terms → Terms
  | [] => none
  | t :: rest => t ++ all rest

/-- One condition out of several terms, of which one must hold; nothing where there are none. -/
def anyOf (terms : List Terms) : Terms :=
  match terms with
  | [] => none
  | _ => ⟨[.anyOf ((all terms).conditions)], (all terms).bindings⟩

end Terms

end LeadTime
