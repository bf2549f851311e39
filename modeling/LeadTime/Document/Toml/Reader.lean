import LeadTime.Document.Toml.DateTime
import LeadTime.Document.Toml.Table
import LeadTime.Text.Chars

/-! Reading TOML text: tables, arrays of tables, dotted keys, the four kinds of string, integers of 64 bits, floats,
booleans, dates and times, arrays and inline tables. -/
namespace LeadTime.Toml

/-- How deep arrays and inline tables may nest, and how many parts a key may have. -/
def nestingLimit : Nat := 79

/-- Characters of a line: all but controls, of which only the tab may stand. -/
def isLineChar (c : Char) : Bool := c = '\t' || (0x20 ≤ c.toNat && c.toNat ≠ 0x7F)

def plainBreaks : List Char → List Char
  | [] => []
  | '\r' :: '\n' :: rest => '\n' :: plainBreaks rest
  | c :: rest => c :: plainBreaks rest

def isBlank (c : Char) : Bool := c = ' ' || c = '\t'

def skipBlanks (s : List Char) : List Char := s.dropWhile isBlank

/-- Skips blanks, line breaks and comments; `inComment` where a comment has begun. -/
def skipLines (inComment : Bool) : List Char → List Char
  | [] => []
  | c :: rest =>
    if inComment then skipLines (c ≠ '\n') rest
    else if isBlank c || c = '\n' then skipLines false rest
    else if c = '#' then skipLines true rest
    else c :: rest

/-- The rest after the end of a line, which blanks and a comment may precede. -/
def endOfLine? (s : List Char) : Option (List Char) :=
  match skipBlanks s with
  | [] => some []
  | '\n' :: rest => some rest
  | '#' :: rest => some (rest.dropWhile (· ≠ '\n'))
  | _ => none

def simpleEscape? : Char → Option Char
  | 'b' => some '\x08'
  | 't' => some '\t'
  | 'n' => some '\n'
  | 'f' => some '\x0c'
  | 'r' => some '\r'
  | '"' => some '"'
  | '\\' => some '\\'
  | _ => none

def escape? : List Char → Option (Char × List Char)
  | 'u' :: rest => do
    if rest.length < 4 then none
    return (← Text.charOfHex? (rest.take 4), rest.drop 4)
  | 'U' :: rest => do
    if rest.length < 8 then none
    return (← Text.charOfHex? (rest.take 8), rest.drop 8)
  | c :: rest => (simpleEscape? c).map (·, rest)
  | [] => none

/-- The rest of a string on one line, after its quote; `fuel` bounds its length. -/
def stringBody? : Nat → List Char → Option (List Char × List Char)
  | 0, _ => none
  | fuel + 1, s =>
    match s with
    | [] => none
    | '"' :: rest => some ([], rest)
    | '\\' :: rest => do
      let (c, rest) ← escape? rest
      let (cs, rest) ← stringBody? fuel rest
      return (c :: cs, rest)
    | c :: rest =>
      if c = '\n' then none else (stringBody? fuel rest).map fun (cs, rest) => (c :: cs, rest)

def literalBody? : List Char → Option (List Char × List Char)
  | [] => none
  | c :: rest =>
    if c = '\'' then some ([], rest)
    else if c = '\n' then none
    else (literalBody? rest).map fun (cs, rest) => (c :: cs, rest)

/-- The end of a string of several lines: three quotes, after up to two that belong to it. -/
def closing? (quote : Char) (s : List Char) : Option (List Char × List Char) :=
  let count := (s.takeWhile (· = quote)).length
  if count < 3 then none else some (List.replicate (min count 5 - 3) quote, s.drop (min count 5))

/-- The rest of a string of several lines, after its quotes. A backslash before a line break drops it and the blanks
and breaks that follow. -/
def linesBody? : Nat → List Char → Option (List Char × List Char)
  | 0, _ => none
  | fuel + 1, s =>
    match closing? '"' s with
    | some found => some found
    | none =>
      match s with
      | [] => none
      | '\\' :: rest =>
        if (skipBlanks rest).head? = some '\n' then
          linesBody? fuel (rest.dropWhile fun c => isBlank c || c = '\n')
        else do
          let (c, rest) ← escape? rest
          let (cs, rest) ← linesBody? fuel rest
          return (c :: cs, rest)
      | c :: rest => (linesBody? fuel rest).map fun (cs, rest) => (c :: cs, rest)

def literalLines? (s : List Char) : Option (List Char × List Char) :=
  match closing? '\'' s with
  | some found => some found
  | none =>
    match s with
    | [] => none
    | c :: rest => (literalLines? rest).map fun (cs, rest) => (c :: cs, rest)

/-- A line break right after the opening quotes does not count. -/
def afterOpening : List Char → List Char
  | '\n' :: rest => rest
  | s => s

def isBareKeyChar (c : Char) : Bool := c.isAlphanum || c = '_' || c = '-'

def key? (s : List Char) : Option (String × List Char) :=
  match s with
  | '"' :: rest => (stringBody? rest.length.succ rest).map fun (cs, rest) => (String.ofList cs, rest)
  | '\'' :: rest => (literalBody? rest).map fun (cs, rest) => (String.ofList cs, rest)
  | _ =>
    let cs := s.takeWhile isBareKeyChar
    if cs.isEmpty then none else some (String.ofList cs, s.drop cs.length)

/-- Keys with dots between them, and the rest after blanks. -/
def keys? : Nat → List Char → Option (List String × List Char)
  | 0, _ => none
  | fuel + 1, s => do
    let (key, rest) ← key? (skipBlanks s)
    match skipBlanks rest with
    | '.' :: rest =>
      let (keys, rest) ← keys? fuel rest
      return (key :: keys, rest)
    | rest => return ([key], rest)

def path? (s : List Char) : Option (List String × List Char) :=
  (keys? s.length.succ s).filter (·.1.length ≤ nestingLimit)

/-- Digits without the single underscores that may stand between two of them. -/
def digits? : List Char → Option (List Char)
  | [] => none
  | [c] => if c = '_' then none else some [c]
  | c :: '_' :: rest => if c = '_' then none else (digits? rest).map (c :: ·)
  | c :: rest => if c = '_' then none else (digits? rest).map (c :: ·)

def inRange (n : Int) : Option Datum :=
  if -0x8000000000000000 ≤ n ∧ n < 0x8000000000000000 then some (.int n) else none

def signed (negative : Bool) (n : Nat) : Int := if negative then -(n : Int) else n

/-- Decimal digits of which only a lone first one is zero. -/
def wholeDigits? (s : List Char) : Option (List Char) := do
  let ds ← digits? s
  if ds.all Text.isDigit && (ds.head? ≠ some '0' || ds.length = 1) then some ds else none

def fractionDigits? (s : List Char) : Option (List Char) := do
  let ds ← digits? s
  if ds.all Text.isDigit then some ds else none

def exponent? (s : List Char) : Option Int := do
  let negative := s.head? = some '-'
  let ds ← fractionDigits? (if negative || s.head? = some '+' then s.tail else s)
  return signed negative (Text.natOfDigits ds)

/-- A number with a point or an exponent. Too small a number is infinite, too large a one is refused. -/
def float? (negative : Bool) (s : List Char) : Option Datum := do
  let mantissa := s.takeWhile fun c => c ≠ 'e' && c ≠ 'E'
  let exponent ← match s.drop mantissa.length with
    | [] => some 0
    | _ :: rest => exponent? rest
  let whole ← wholeDigits? (mantissa.takeWhile (· ≠ '.'))
  let fraction ← match mantissa.dropWhile (· ≠ '.') with
    | [] => some []
    | _ :: rest => fractionDigits? rest
  match Decimal.nearest? negative (Text.natOfDigits (whole ++ fraction)) (exponent - fraction.length) with
  | some bits => return .float bits
  | none => if negative then return .float (Decimal.infinity true) else none

def magnitude? (negative : Bool) (s : List Char) : Option Datum :=
  match s with
  | ['i', 'n', 'f'] => some (.float (Decimal.infinity negative))
  | ['n', 'a', 'n'] => some (.float Decimal.undefinedBits)
  | s =>
    if s.any fun c => c = '.' || c = 'e' || c = 'E' then float? negative s
    else do inRange (signed negative (Text.natOfDigits (← wholeDigits? s)))

def inBase? (base : Nat) (s : List Char) : Option Datum := do
  inRange (← Text.natInBase? base (← digits? s))

/-- A value that is one word: a boolean or a number. -/
def bareValue? (s : List Char) : Option Datum :=
  match s with
  | ['t', 'r', 'u', 'e'] => some (.bool true)
  | ['f', 'a', 'l', 's', 'e'] => some (.bool false)
  | '0' :: 'x' :: rest => inBase? 16 rest
  | '0' :: 'o' :: rest => inBase? 8 rest
  | '0' :: 'b' :: rest => inBase? 2 rest
  | '-' :: rest => magnitude? true rest
  | '+' :: rest => magnitude? false rest
  | s => magnitude? false s

def isWordChar (c : Char) : Bool := c.isAlphanum || c = '_' || c = '-' || c = '+' || c = '.' || c = ':'

/-- The items of an array, after its bracket; a comma may stand after the last. -/
def items? (value : List Char → Option (Datum × List Char)) : Nat → List Char → Option (List Datum × List Char)
  | 0, _ => none
  | fuel + 1, s =>
    match skipLines false s with
    | ']' :: rest => some ([], rest)
    | s => do
      let (d, rest) ← value s
      match skipLines false rest with
      | ',' :: rest =>
        let (ds, rest) ← items? value fuel rest
        return (d :: ds, rest)
      | ']' :: rest => return ([d], rest)
      | _ => none

def assignment? (value : List Char → Option (Datum × List Char)) (s : List Char) :
    Option ((List String × Datum) × List Char) := do
  let (path, rest) ← path? s
  match rest with
  | '=' :: rest =>
    let (d, rest) ← value (skipBlanks rest)
    return ((path, d), rest)
  | _ => none

/-- The entries of an inline table up to its brace, added to those that came before. -/
def entries? (value : List Char → Option (Datum × List Char)) :
    Nat → Entries → List Char → Option (Entries × List Char)
  | 0, _, _ => none
  | fuel + 1, entries, s => do
    let ((path, d), rest) ← assignment? value s
    let entries ← assign path d entries
    match skipBlanks rest with
    | ',' :: rest => entries? value fuel entries rest
    | '\x7d' :: rest => return (entries, rest)
    | _ => none

/-- A value at its first character; arrays and inline tables may nest `depth` deep. -/
def value? : Nat → List Char → Option (Datum × List Char)
  | depth, s =>
    let text (found : Option (List Char × List Char)) : Option (Datum × List Char) :=
      found.map fun (cs, rest) => (.text (String.ofList cs), rest)
    match s, depth with
    | '"' :: '"' :: '"' :: rest, _ => text (linesBody? rest.length.succ (afterOpening rest))
    | '"' :: rest, _ => text (stringBody? rest.length.succ rest)
    | '\'' :: '\'' :: '\'' :: rest, _ => text (literalLines? (afterOpening rest))
    | '\'' :: rest, _ => text (literalBody? rest)
    | '[' :: rest, depth + 1 =>
      (items? (value? depth) rest.length.succ rest).map fun (ds, rest) => (.list ds, rest)
    | '\x7b' :: rest, depth + 1 =>
      match skipBlanks rest with
      | '\x7d' :: rest => some (.map [], rest)
      | rest =>
        (entries? (value? depth) rest.length.succ [] rest).map fun (es, rest) => (.map (entryData es), rest)
    | s, _ =>
      match dateTime? s with
      | some (t, rest) => some (t.datum, rest)
      | none =>
        let word := s.takeWhile isWordChar
        (bareValue? word).map (·, s.drop word.length)

def statement? (s : List Char) : Option (Statement × List Char) :=
  match s with
  | '[' :: '[' :: rest => do
    let (path, rest) ← path? rest
    match rest with
    | ']' :: ']' :: rest => return (.element path, ← endOfLine? rest)
    | _ => none
  | '[' :: rest => do
    let (path, rest) ← path? rest
    match rest with
    | ']' :: rest => return (.table path, ← endOfLine? rest)
    | _ => none
  | s => do
    let ((path, d), rest) ← assignment? (value? nestingLimit) s
    return (.assignment path d, ← endOfLine? rest)

def statements? : Nat → List Char → Option (List Statement)
  | 0, _ => none
  | fuel + 1, s =>
    match skipLines false s with
    | [] => some []
    | s => do
      let (statement, rest) ← statement? s
      return statement :: (← statements? fuel rest)

def read? (text : String) : Option Toml := do
  let s := plainBreaks (if text.front = '\uFEFF' then text.toList.tail else text.toList)
  if s.all fun c => isLineChar c || c = '\n' then ofStatements? (← statements? s.length.succ s) else none

end LeadTime.Toml
