import LeadTime.Decimal
import LeadTime.Document.Json
import LeadTime.Text.Chars

/-! Reading JSON text. Integers that fit 64 bits stay integers and all other numbers become floats. Lists and maps
have a value where no more than `nestingLimit` of them nest. -/
namespace LeadTime.Json

def nestingLimit : Nat := 127

def isBlank (c : Char) : Bool := c = ' ' || c = '\n' || c = '\t' || c = '\r'

def skipBlanks (s : List Char) : List Char := s.dropWhile isBlank

def unit? (a b c d : Char) : Option Nat := do
  return ((← Text.hexValue? a) * 16 + (← Text.hexValue? b)) * 256 + ((← Text.hexValue? c) * 16 + (← Text.hexValue? d))

/-- The character that one unit stands for; half of a pair stands for none. -/
def charOfUnit? (u : Nat) : Option Char :=
  if 0xD800 ≤ u ∧ u ≤ 0xDFFF then none else some (Char.ofNat u)

def charOfPair? (high low : Nat) : Option Char :=
  if 0xDC00 ≤ low ∧ low ≤ 0xDFFF then
    some (Char.ofNat (0x10000 + (high - 0xD800) * 0x400 + (low - 0xDC00)))
  else none

/-- A part of a string: a character, or a unit that is written in digits. -/
inductive Piece where
  | char (c : Char)
  | unit (u : Nat)

def escape? : Char → Option Char
  | '"' => some '"'
  | '\\' => some '\\'
  | '/' => some '/'
  | 'b' => some '\x08'
  | 'f' => some '\x0c'
  | 'n' => some '\n'
  | 'r' => some '\r'
  | 't' => some '\t'
  | _ => none

/-- Reads a string after its opening quote, up to and with the closing one. -/
def pieces? : List Char → Option (List Piece × List Char)
  | [] => none
  | '"' :: rest => some ([], rest)
  | '\\' :: 'u' :: a :: b :: c :: d :: rest => do
    let u ← unit? a b c d
    let (ps, rest) ← pieces? rest
    return (.unit u :: ps, rest)
  | '\\' :: c :: rest => do
    let ch ← escape? c
    let (ps, rest) ← pieces? rest
    return (.char ch :: ps, rest)
  | c :: rest =>
    if c.toNat < 0x20 ∨ c = '\\' then none
    else (pieces? rest).map fun (ps, rest) => (.char c :: ps, rest)

/-- The text of a string, where every half of a pair of units has its other half. -/
def joined? : List Piece → Option (List Char)
  | [] => some []
  | .char c :: rest => (joined? rest).map (c :: ·)
  | .unit u :: .unit v :: rest =>
    if 0xD800 ≤ u ∧ u ≤ 0xDBFF then do return (← charOfPair? u v) :: (← joined? rest)
    else do return (← charOfUnit? u) :: (← joined? (.unit v :: rest))
  | .unit u :: rest => do return (← charOfUnit? u) :: (← joined? rest)

def string? (ps : List Piece) : Option String := (joined? ps).map String.ofList

def digits (s : List Char) : List Char × List Char := (s.takeWhile Text.isDigit, s.dropWhile Text.isDigit)

def someDigits? (s : List Char) : Option (List Char × List Char) :=
  match digits s with
  | ([], _) => none
  | found => some found

def fraction? : List Char → Option (List Char × List Char)
  | '.' :: rest => someDigits? rest
  | rest => some ([], rest)

def exponent? : List Char → Option (Option Int × List Char)
  | c :: rest =>
    if c = 'e' ∨ c = 'E' then
      match rest with
      | '-' :: rest => (someDigits? rest).map fun (ds, rest) => (some (-(Text.natOfDigits ds : Int)), rest)
      | '+' :: rest => (someDigits? rest).map fun (ds, rest) => (some (Text.natOfDigits ds : Int), rest)
      | rest => (someDigits? rest).map fun (ds, rest) => (some (Text.natOfDigits ds : Int), rest)
    else some (none, c :: rest)
  | [] => some (none, [])

/-- Whether an integer fits 64 bits, unsigned when positive and signed when negative. -/
def isInteger (negative : Bool) (n : Nat) : Bool :=
  if negative then 0 < n && n ≤ 0x8000000000000000 else n < 0x10000000000000000

def number? (s : List Char) : Option (Json × List Char) := do
  let negative := s.head? = some '-'
  let (whole, rest) ← someDigits? (if negative then s.tail else s)
  if whole.head? = some '0' ∧ whole.length > 1 then none
  let hasPoint := rest.head? = some '.'
  let (fraction, rest) ← fraction? rest
  let (exponent, rest) ← exponent? rest
  let n := Text.natOfDigits whole
  if !hasPoint && exponent.isNone && isInteger negative n then
    return (.int (if negative then -(n : Int) else n), rest)
  else
    match Decimal.bits? negative whole fraction (exponent.getD 0) with
    | some bits => return (.float bits, rest)
    | none => return (.void, rest)

def afterWord? (word : List Char) (s : List Char) : Option (List Char) :=
  if word.isPrefixOf s then some (s.drop word.length) else none

/-- Reads items until the closing character; `fuel` bounds their number. -/
def items? {α : Type} (item : List Char → Option (α × List Char)) (close : Char) :
    Nat → List Char → Option (List α × List Char)
  | 0, _ => none
  | fuel + 1, s => do
    let (a, s) ← item s
    match skipBlanks s with
    | c :: rest =>
      if c = close then return ([a], rest)
      else if c = ',' then
        let (as, rest) ← items? item close fuel (skipBlanks rest)
        return (a :: as, rest)
      else none
    | [] => none

def bracketed? {α : Type} (item : List Char → Option (α × List Char)) (close : Char) (s : List Char) :
    Option (List α × List Char) :=
  match skipBlanks s with
  | c :: rest => if c = close then some ([], rest) else items? item close s.length (c :: rest)
  | [] => none

def member? (value : List Char → Option (Json × List Char)) (s : List Char) :
    Option ((Option String × Json) × List Char) :=
  match s with
  | '"' :: rest => do
    let (key, rest) ← pieces? rest
    match skipBlanks rest with
    | ':' :: rest =>
      let (d, rest) ← value (skipBlanks rest)
      return ((string? key, d), rest)
    | _ => none
  | _ => none

def ofMembers (entries : List (Option String × Json)) : Json :=
  match entries.mapM fun entry => entry.1.map (·, entry.2) with
  | some es => .map es
  | none => .void

/-- A list or a map where `room` more may nest. -/
def within (room : Nat) (j : Json) : Json := if room = 0 then .void else j

/-- Reads one value that starts at the first character, with room for as many lists and maps inside each other;
`fuel` bounds how many there are. -/
def value? : (fuel room : Nat) → List Char → Option (Json × List Char)
  | 0, _, _ => none
  | fuel + 1, room, s =>
    match s with
    | '"' :: rest => (pieces? rest).map fun (ps, rest) => (((string? ps).map Json.text).getD .void, rest)
    | '[' :: rest =>
      (bracketed? (value? fuel (room - 1)) ']' rest).map fun (as, rest) => (within room (.list as), rest)
    | '\x7b' :: rest =>
      (bracketed? (member? (value? fuel (room - 1))) '\x7d' rest).map fun (es, rest) =>
        (within room (ofMembers es), rest)
    | 'n' :: _ => (afterWord? ['n', 'u', 'l', 'l'] s).map fun rest => (.null, rest)
    | 't' :: _ => (afterWord? ['t', 'r', 'u', 'e'] s).map fun rest => (.bool true, rest)
    | 'f' :: _ => (afterWord? ['f', 'a', 'l', 's', 'e'] s).map fun rest => (.bool false, rest)
    | _ => number? s

def read? (text : String) : Option Json := do
  let s := skipBlanks text.toList
  let (j, rest) ← value? s.length.succ nestingLimit s
  if (skipBlanks rest).isEmpty then some j else none

end LeadTime.Json
