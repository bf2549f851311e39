import LeadTime.Decimal
import LeadTime.Document.Node

/-! What a TOML text holds: data without nulls. A word may be the name of an empty table, and a float that is no number
is nothing where it is taken as it is. -/
namespace LeadTime

structure Toml where
  data : Datum
  deriving Inhabited

namespace Toml

mutual

def finite : Datum → Datum
  | .float bits => if Decimal.isFinite bits then .float bits else .null
  | .list items => .list (finiteItems items)
  | .map entries => .map (finiteEntries entries)
  | .null => .null
  | .bool b => .bool b
  | .int n => .int n
  | .text s => .text s

def finiteItems : List Datum → List Datum
  | [] => []
  | item :: rest => finite item :: finiteItems rest

def finiteEntries : List (String × Datum) → List (String × Datum)
  | [] => []
  | (key, value) :: rest => (key, finite value) :: finiteEntries rest

end

def word? (t : Toml) : Option String :=
  match t.data with
  | .text s => some s
  | .map [(key, .map [])] | .map [(key, .list [])] => some key
  | _ => none

def list? (t : Toml) : Option (List Toml) := t.data.list?.map fun items => items.map Toml.mk

def map? (t : Toml) : Option (List (String × Toml)) :=
  t.data.map?.map fun entries => entries.map fun entry => (entry.1, ⟨entry.2⟩)

instance : Node Toml where
  null? t := some t.data.isNull
  bool? t := t.data.bool?
  int? t := t.data.int?
  nat? t := t.data.nat?
  text? t := t.data.text?
  word? := word?
  list? := list?
  map? := map?
  positions? := list?
  datum? t := some (finite t.data)

end Toml
end LeadTime
