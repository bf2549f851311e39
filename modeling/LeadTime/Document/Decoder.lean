import LeadTime.Document.Node
import LeadTime.KeyMap

/-! Decoding nodes into values. A record names its fields: a field that is not known is skipped, one that is
given twice is refused, and where the format writes records by position the fields may be cut off at
the end. -/
namespace LeadTime.Decoder

variable {ν : Type} [Node ν] {α : Type}

/-- The value of a field, if given; refused when given twice. -/
def field? (entries : List (String × ν)) (name : String) : Option (Option ν) :=
  match entries.filter fun pair => pair.1 = name with
  | [] => some none
  | [pair] => some (some pair.2)
  | _ => none

/-- The fields of a record in the order of `names`. -/
def record (names : List String) (node : ν) : Option (List (Option ν)) :=
  match Node.map? node with
  | some entries => names.mapM (field? entries)
  | none =>
    match Node.positions? node with
    | some items =>
      if items.length ≤ names.length then
        some (items.map some ++ List.replicate (names.length - items.length) none)
      else none
    | none => none

def required (decode : ν → Option α) (field : Option ν) : Option α := field.bind decode

def orElse (default : α) (decode : ν → Option α) : Option ν → Option α
  | none => some default
  | some node => decode node

def nullable (decode : ν → Option α) (node : ν) : Option (Option α) :=
  match Node.null? node with
  | some true => some none
  | some false => (decode node).map some
  | none => none

/-- A field that may be left out or hold nothing. -/
def optional (decode : ν → Option α) (field : Option ν) : Option (Option α) :=
  orElse none (nullable decode) field

def text (node : ν) : Option String := Node.text? node

def bool (node : ν) : Option Bool := Node.bool? node

def intWithin (low high : Int) (node : ν) : Option Int := (Node.int? node).filter fun n => low ≤ n && n ≤ high

def natWithin (high : Nat) (node : ν) : Option Nat := (Node.nat? node).filter (· ≤ high)

def uint64 (node : ν) : Option UInt64 := (natWithin 0xFFFFFFFFFFFFFFFF node).map UInt64.ofNat

def uint32 (node : ν) : Option UInt32 := (natWithin 0xFFFFFFFF node).map UInt32.ofNat

def int64 (node : ν) : Option Int64 := (intWithin (-0x8000000000000000) 0x7FFFFFFFFFFFFFFF node).map Int64.ofInt

def int32 (node : ν) : Option Int32 := (intWithin (-0x80000000) 0x7FFFFFFF node).map Int32.ofInt

def word (all : List α) (name : α → String) (node : ν) : Option α := do
  let w ← Node.word? node
  all.find? fun a => name a = w

def list (decode : ν → Option α) (node : ν) : Option (List α) := do
  let items ← Node.list? node
  items.mapM decode

def texts (node : ν) : Option (List String) := list text node

def keyMap (decode : ν → Option α) (node : ν) : Option (KeyMap α) := do
  let entries ← Node.map? node
  let pairs ← entries.mapM fun pair => (decode pair.2).map (pair.1, ·)
  return .ofList pairs

end LeadTime.Decoder
