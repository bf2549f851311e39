import LeadTime.Decimal
import LeadTime.Document.Datum

/-! Data as JSON text: on one line without blanks, or indented by two blanks a level. Only the quote, the
backslash and characters below the blank are escaped. -/
namespace LeadTime.Json

def hexDigit (n : Nat) : Char := Nat.digitChar n

def escapedChar (c : Char) : List Char :=
  match c with
  | '"' => ['\\', '"']
  | '\\' => ['\\', '\\']
  | '\x08' => ['\\', 'b']
  | '\x0c' => ['\\', 'f']
  | '\n' => ['\\', 'n']
  | '\r' => ['\\', 'r']
  | '\t' => ['\\', 't']
  | c =>
    if c.toNat < 0x20 then ['\\', 'u', '0', '0', hexDigit (c.toNat / 16), hexDigit (c.toNat % 16)]
    else [c]

def escape (cs : List Char) : List Char := cs.flatMap escapedChar

def quoted (text : String) : String := String.ofList ('"' :: escape text.toList ++ ['"'])

def openBrace : String := "\x7b"

def closeBrace : String := "\x7d"

mutual

def compact : Datum → String
  | .null => "null"
  | .bool true => "true"
  | .bool false => "false"
  | .int n => toString n
  | .float bits => Decimal.text bits
  | .text s => quoted s
  | .list items => "[" ++ ",".intercalate (compactItems items) ++ "]"
  | .map entries => openBrace ++ ",".intercalate (compactEntries entries) ++ closeBrace

def compactItems : List Datum → List String
  | [] => []
  | item :: rest => compact item :: compactItems rest

def compactEntries : List (String × Datum) → List String
  | [] => []
  | (key, value) :: rest => (quoted key ++ ":" ++ compact value) :: compactEntries rest

end

def lineAt (level : Nat) : String := String.ofList ('\n' :: List.replicate (2 * level) ' ')

/-- Lines one level further in, between two brackets. -/
def block (level : Nat) (opening closing : String) (lines : List String) : String :=
  opening ++ lineAt (level + 1) ++ ("," ++ lineAt (level + 1)).intercalate lines ++ lineAt level ++
    closing

mutual

/-- JSON with one item or entry a line; what is empty stays on its line. -/
def indented (level : Nat) : Datum → String
  | .list [] => "[]"
  | .map [] => openBrace ++ closeBrace
  | .list (item :: rest) =>
    block level "[" "]" (indented (level + 1) item :: indentedItems (level + 1) rest)
  | .map ((key, value) :: rest) =>
    block level openBrace closeBrace
      ((quoted key ++ ": " ++ indented (level + 1) value) :: indentedEntries (level + 1) rest)
  | .null => "null"
  | .bool true => "true"
  | .bool false => "false"
  | .int n => toString n
  | .float bits => Decimal.text bits
  | .text s => quoted s

def indentedItems (level : Nat) : List Datum → List String
  | [] => []
  | item :: rest => indented level item :: indentedItems level rest

def indentedEntries (level : Nat) : List (String × Datum) → List String
  | [] => []
  | (key, value) :: rest => (quoted key ++ ": " ++ indented level value) :: indentedEntries level rest

end

def write (pretty : Bool) (d : Datum) : String := if pretty then indented 0 d else compact d

end LeadTime.Json
