import LeadTime.Decimal
import LeadTime.Document.Node
import LeadTime.Document.Yaml.Written
import LeadTime.Text.Chars

/-! What a YAML document holds. A scalar without quotes has no type of its own: it stands for whatever is asked of it,
and where nothing is asked its tag or its form decides. -/
namespace LeadTime

inductive Yaml.Tag where
  | bool
  | int
  | float
  | null
  | other
  deriving DecidableEq, Repr

inductive Yaml where
  | scalar (tag : Option Yaml.Tag) (style : Yaml.Style) (text : String)
  | list (items : List Yaml)
  | map (entries : List (Yaml × Yaml))
  | named (name : String) (node : Yaml)
  /-- A node that is written elsewhere. At most `limit` such nodes are read one after the other. -/
  | reference (limit : Nat) (node : Yaml)
  | tooDeep
  deriving Inhabited

namespace Yaml

def Tag.ofText : String → Tag
  | "tag:yaml.org,2002:bool" => .bool
  | "tag:yaml.org,2002:int" => .int
  | "tag:yaml.org,2002:float" => .float
  | "tag:yaml.org,2002:null" => .null
  | _ => .other

/-- A node under a tag, which is the document's own where it begins with an exclamation mark. -/
def tagged (tag : String) (node : Yaml) : Yaml :=
  match tag.toList, node with
  | '!' :: name, node => .named (if name.isEmpty then "!" else String.ofList name) node
  | _, .scalar _ style text => .scalar (some (Tag.ofText tag)) style text
  | _, node => node

def isNullWord (text : String) : Bool := text ∈ ["", "~", "null", "Null", "NULL"]

def boolOf? (text : String) : Option Bool :=
  if text ∈ ["true", "True", "TRUE"] then some true
  else if text ∈ ["false", "False", "FALSE"] then some false
  else none

def isZeroLed : List Char → Bool
  | '0' :: d :: ds => (d :: ds).all Text.isDigit
  | _ => false

/-- A number in base sixteen, eight or two after its mark, or in base ten. -/
def magnitude? : List Char → Option Nat
  | '0' :: 'x' :: ds => Text.natInBase? 16 ds
  | '0' :: 'o' :: ds => Text.natInBase? 8 ds
  | '0' :: 'b' :: ds => Text.natInBase? 2 ds
  | ds => if isZeroLed ds then none else Text.natInBase? 10 ds

def withoutPlus : List Char → List Char
  | '+' :: s => s
  | s => s

/-- A number without a minus, of at most 128 bits. -/
def natOf? (text : String) : Option Nat :=
  (magnitude? (withoutPlus text.toList)).filter (· < 0x100000000000000000000000000000000)

def negativeOf? (text : String) : Option Int :=
  match text.toList with
  | '-' :: s => ((magnitude? s).filter (· ≤ 0x80000000000000000000000000000000)).map fun n => -(n : Int)
  | _ => none

def intOf? (text : String) : Option Int := ((natOf? text).map Int.ofNat).or (negativeOf? text)

def exponent? : List Char → Option Int
  | '-' :: ds => (Text.natInBase? 10 ds).map fun n => -(n : Int)
  | ds => (Text.natInBase? 10 (withoutPlus ds)).map Int.ofNat

def isExponentMark (c : Char) : Bool := c = 'e' || c = 'E'

def decimal? (negative : Bool) (s : List Char) : Option UInt64 := do
  let mantissa := s.takeWhile (!isExponentMark ·)
  let whole := mantissa.takeWhile (· ≠ '.')
  let fraction := mantissa.drop (whole.length + 1)
  let digits ← Text.natInBase? 10 (whole ++ fraction)
  let exponent ← match s.drop mantissa.length with
    | [] => some 0
    | _ :: rest => exponent? rest
  Decimal.nearest? negative digits (exponent - fraction.length)

/-- A number as a float, where it is not too large. -/
def numberOf? (text : String) : Option UInt64 :=
  match text.toList with
  | '-' :: s => decimal? true s
  | s => decimal? false (withoutPlus s)

def isUnboundedWord (text : String) : Bool :=
  text ∈ [".inf", ".Inf", ".INF", "+.inf", "+.Inf", "+.INF", "-.inf", "-.Inf", "-.INF", ".nan", ".NaN", ".NAN"]

/-- A float; one that is no finite number is null. -/
def floatDatum? (text : String) : Option Datum :=
  if isUnboundedWord text then some .null else (numberOf? text).map .float

/-- An integer, which is nothing where it does not fit 64 bits. -/
def intDatum? (n : Int) : Option Datum :=
  if -0x8000000000000000 ≤ n ∧ n < 0x10000000000000000 then some (.int n) else none

def isZeroLedText (text : String) : Bool :=
  match text.toList with
  | '-' :: cs => isZeroLed cs
  | cs => isZeroLed (withoutPlus cs)

/-- What an unquoted scalar is when nothing else is asked of it. -/
def plainDatum? (text : String) : Option Datum :=
  if isNullWord text then some .null
  else
    match boolOf? text, intOf? text with
    | some b, _ => some (.bool b)
    | none, some n => intDatum? n
    | none, none => if isZeroLedText text then some (.text text) else (floatDatum? text).or (some (.text text))

/-- What a scalar is when nothing else is asked of it: a text in quotes, unless its tag says otherwise. -/
def scalarDatum? (tag : Option Tag) (style : Style) (text : String) : Option Datum :=
  match tag with
  | none => if style = .plain then plainDatum? text else some (.text text)
  | some .bool => (boolOf? text).map .bool
  | some .int => (intOf? text).bind intDatum?
  | some .float => floatDatum? text
  | some .null => if isNullWord text && text ≠ "" then some .null else none
  | some .other => some (.text text)

/-- A node without its own tag, where it is written. -/
def bare : Yaml → Yaml
  | .named _ node | .reference _ node => node.bare
  | node => node

/-- The text of a scalar that may be something else than a text: one without quotes, or a literal block with the tag
for it. -/
def formText? (tag : Tag) (node : Yaml) : Option String :=
  match node.bare with
  | .scalar own style text => if style = .plain || (style = .literal && own = some tag) then some text else none
  | _ => none

def text? (node : Yaml) : Option String :=
  match node.bare with
  | .scalar _ _ text => some text
  | _ => none

def bool? (node : Yaml) : Option Bool := (node.formText? .bool).bind boolOf?

def int? (node : Yaml) : Option Int := (node.formText? .int).bind intOf?

def nat? (node : Yaml) : Option Nat := (node.formText? .int).bind natOf?

def isEmpty (node : Yaml) : Bool :=
  match node.bare with
  | .scalar _ style text => style = .plain && text = ""
  | _ => false

/-- Whether a scalar says that there is no value; one that has the tag for it may say nothing else. -/
def null? : Yaml → Option Bool
  | .reference _ node => node.null?
  | .scalar tag .plain text =>
    match tag with
    | none => some (isNullWord text)
    | some .null => if isNullWord text && text ≠ "" then some true else none
    | some _ => some false
  | _ => some false

/-- A word is a text, or a tag of the document's own in front of nothing. -/
def word? : Yaml → Option String
  | .reference _ node => node.word?
  | .named name node =>
    match node with
    | .scalar _ .plain text => if isNullWord text then some name else none
    | _ => none
  | .scalar _ _ text => some text
  | _ => none

/-- A list; where nothing is written, the empty one. -/
def list? (node : Yaml) : Option (List Yaml) :=
  match node.bare with
  | .list items => some items
  | node => if node.isEmpty then some [] else none

def map? (node : Yaml) : Option (List (String × Yaml)) :=
  match node.bare with
  | .map entries => entries.mapM fun (key, value) => key.text?.map (·, value)
  | node => if node.isEmpty then some [] else none

mutual

/-- The node as it is, after so many references, and how many there are with those in it. -/
def datumFrom? (count : Nat) : Yaml → Option (Datum × Nat)
  | .scalar tag style text => (scalarDatum? tag style text).map (·, count)
  | .list items => (itemDataFrom? count items).map fun (data, count) => (.list data, count)
  | .map entries => (entryDataFrom? count entries).map fun (data, count) => (.map data, count)
  | .reference limit node => if count < limit then node.datumFrom? (count + 1) else none
  | .named .. | .tooDeep => none

def itemDataFrom? (count : Nat) : List Yaml → Option (List Datum × Nat)
  | [] => some ([], count)
  | item :: rest => do
    let (d, count) ← item.datumFrom? count
    let (ds, count) ← itemDataFrom? count rest
    return (d :: ds, count)

def entryDataFrom? (count : Nat) : List (Yaml × Yaml) → Option (List (String × Datum) × Nat)
  | [] => some ([], count)
  | (key, value) :: rest => do
    let key ← key.text?
    let (d, count) ← value.datumFrom? count
    let (ds, count) ← entryDataFrom? count rest
    return ((key, d) :: ds, count)

end

def datum? (node : Yaml) : Option Datum := (node.datumFrom? 0).map Prod.fst

instance : Node Yaml where
  null? := null?
  bool? := bool?
  int? := int?
  nat? := nat?
  text? := text?
  word? := word?
  list? := list?
  map? := map?
  positions? _ := none
  datum? := datum?

example : plainDatum? "010" = some (.text "010") := by cbv
example : plainDatum? "-0x1F" = some (.int (-31)) := by cbv
example : plainDatum? "1.5e" = some (.text "1.5e") := by cbv
example : (intOf? "-0", natOf? "-0") = (some 0, none) := by cbv

end Yaml
end LeadTime
