import LeadTime.Document.Datum

/-! What a decoder may ask of a document's node. Formats differ in the answers: a node without quotes may
stand for a number or a text, and only some formats write records by position. -/
namespace LeadTime

class Node (ν : Type) where
  /-- Whether the node says that there is no value; nothing where it says so of a value. -/
  null? : ν → Option Bool
  bool? : ν → Option Bool
  int? : ν → Option Int
  /-- An integer that is written without a minus. -/
  nat? : ν → Option Nat
  text? : ν → Option String
  word? : ν → Option String
  list? : ν → Option (List ν)
  map? : ν → Option (List (String × ν))
  /-- The fields of a record written in order, without names. -/
  positions? : ν → Option (List ν)
  datum? : ν → Option Datum

namespace Datum

def bool? : Datum → Option Bool
  | .bool b => some b
  | _ => none

def int? : Datum → Option Int
  | .int n => some n
  | _ => none

def nat? (d : Datum) : Option Nat := d.int?.bind Int.toNat?

def text? : Datum → Option String
  | .text s => some s
  | _ => none

def word? : Datum → Option String
  | .text s => some s
  | .map [(key, .null)] => some key
  | _ => none

def list? : Datum → Option (List Datum)
  | .list items => some items
  | _ => none

def map? : Datum → Option (List (String × Datum))
  | .map entries => some entries
  | _ => none

def isNull : Datum → Bool
  | .null => true
  | _ => false

instance : Node Datum where
  null? d := some d.isNull
  bool? := bool?
  int? := int?
  nat? := nat?
  text? := text?
  word? := word?
  list? := list?
  map? := map?
  positions? := list?
  datum? := some

end Datum
end LeadTime
