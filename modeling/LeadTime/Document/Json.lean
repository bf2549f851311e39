import LeadTime.Document.Node

/-! What a JSON text holds. A value that nobody asks for is skipped by its form alone, so that it may be one that
stands for nothing. -/
namespace LeadTime

inductive Json where
  | null
  | bool (value : Bool)
  | int (value : Int)
  | float (bits : UInt64)
  | text (value : String)
  | list (items : List Json)
  | map (entries : List (String × Json))
  /-- Well formed, but a number out of range, a text with half of a pair of units, or nested too deep. -/
  | void
  deriving Inhabited

namespace Json

def bool? : Json → Option Bool
  | .bool b => some b
  | _ => none

def int? : Json → Option Int
  | .int n => some n
  | _ => none

def nat? (j : Json) : Option Nat := j.int?.bind Int.toNat?

def text? : Json → Option String
  | .text s => some s
  | _ => none

/-- A word is written alone or as the only key of a map, with nothing for it. -/
def word? : Json → Option String
  | .text s => some s
  | .map [(key, .null)] => some key
  | _ => none

def list? : Json → Option (List Json)
  | .list items => some items
  | _ => none

def map? : Json → Option (List (String × Json))
  | .map entries => some entries
  | _ => none

def isNull : Json → Bool
  | .null => true
  | _ => false

mutual

def datum? : Json → Option Datum
  | .null => some .null
  | .bool b => some (.bool b)
  | .int n => some (.int n)
  | .float bits => some (.float bits)
  | .text s => some (.text s)
  | .list items => (itemData? items).map .list
  | .map entries => (entryData? entries).map .map
  | .void => none

def itemData? : List Json → Option (List Datum)
  | [] => some []
  | item :: rest => do return (← item.datum?) :: (← itemData? rest)

def entryData? : List (String × Json) → Option (List (String × Datum))
  | [] => some []
  | (key, value) :: rest => do return (key, ← value.datum?) :: (← entryData? rest)

end

instance : Node Json where
  null? j := some j.isNull
  bool? := bool?
  int? := int?
  nat? := nat?
  text? := text?
  word? := word?
  list? := list?
  map? := map?
  positions? := list?
  datum? := datum?

end Json
end LeadTime
