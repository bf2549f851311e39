import LeadTime.Document.Yaml
import LeadTime.Document.Yaml.Scalar

/-! YAML text of maps of texts, booleans and integers, two blanks further in at each level. A text is quoted where it
would not be read as itself; one of several lines is a literal block. -/
namespace LeadTime.Yaml

/-- Whether a text without quotes would be read as something else, or for its digits is taken for a number by some. -/
def isAmbiguous (text : String) : Bool :=
  match plainDatum? text with
  | some (.text _) => isZeroLedText text
  | _ => true

/-- Characters that are written as they are, wherever a text may hold them. -/
def isPrintable (c : Char) : Bool :=
  let n := c.toNat
  n = 0x0A || (0x20 ≤ n && n ≤ 0x7E) || (0xA0 ≤ n && n ≠ 0xFEFF && n ≠ 0xFFFE && n ≠ 0xFFFF)

/-- Whether the text after a blank, or at the start, holds what would be read as a mark. -/
def hasMark (afterBlank : Bool) : List Char → Bool
  | [] => false
  | c :: rest => (c = ':' && atGap rest) || (afterBlank && c = '#') || hasMark (isGap c) rest

def startsOther (cs : List Char) : Bool :=
  cs.head?.any isIndicator || (cs.head?.any (· ∈ ['?', '-']) && atGap cs.tail) ||
    cs.take 3 = ['-', '-', '-'] || cs.take 3 = ['.', '.', '.']

def isPlain (cs : List Char) : Bool :=
  cs.all (fun c => isPrintable c && !isBreak c) && cs.head? ≠ some ' ' && cs.getLast? ≠ some ' ' && !hasMark false cs &&
    !startsOther cs

/-- Whether two characters, each of its kind, follow each other somewhere. -/
def hasPair (first second : Char → Bool) : List Char → Bool
  | c :: d :: rest => (first c && second d) || hasPair first second (d :: rest)
  | _ => false

/-- Whether a text may stand on lines of its own: no character needs an escape, and no line ends in a blank. -/
def hasPlainLines (cs : List Char) : Bool := cs.all isPrintable && !hasPair (· = ' ') isBreak cs

/-- Whether a text may stand between single quotes, which drop the blanks that a line begins with. -/
def isSingle (cs : List Char) : Bool := hasPlainLines cs && !hasPair isBreak (· = ' ') cs

def isLiteral (cs : List Char) : Bool := hasPlainLines cs && cs.getLast? ≠ some ' '

def hexPadded (width n : Nat) : List Char :=
  let ds := (Nat.toDigits 16 n).map Char.toUpper
  List.replicate (width - ds.length) '0' ++ ds

def doubleChar (c : Char) : List Char :=
  let named (n : Char) : List Char := ['\\', n]
  match c with
  | '\x00' => named '0'
  | '\x07' => named 'a'
  | '\x08' => named 'b'
  | '\t' => named 't'
  | '\n' => named 'n'
  | '\x0b' => named 'v'
  | '\x0c' => named 'f'
  | '\r' => named 'r'
  | '\x1b' => named 'e'
  | '"' => named '"'
  | '\\' => named '\\'
  | '\u0085' => named 'N'
  | '\u2028' => named 'L'
  | '\u2029' => named 'P'
  | c =>
    if isPrintable c then [c]
    else if c.toNat ≤ 0xFF then '\\' :: 'x' :: hexPadded 2 c.toNat
    else if c.toNat ≤ 0xFFFF then '\\' :: 'u' :: hexPadded 4 c.toNat
    else '\\' :: 'U' :: hexPadded 8 c.toNat

def doubleQuoted (cs : List Char) : List Char := '"' :: cs.flatMap doubleChar ++ ['"']

/-- A text on lines at an indent; blank lines are not indented. -/
def indented (indent : Nat) (written : Char → List Char) (lineStart : Bool) : List Char → List Char
  | [] => []
  | c :: rest =>
    if isBreak c then c :: indented indent written true rest
    else (if lineStart then List.replicate indent ' ' else []) ++ written c ++ indented indent written false rest

def singleChar (c : Char) : List Char := if c = '\'' then ['\'', '\''] else [c]

/-- A text between single quotes; the closing one is indented as a line is. -/
def singleQuoted (indent : Nat) (cs : List Char) : List Char :=
  let close : List Char := if cs.getLast?.any isBreak then List.replicate indent ' ' else []
  '\'' :: indented indent singleChar false cs ++ close ++ ['\'']

/-- The marks of a literal block: its indent where its first line does not show it, and how it ends. -/
def literalMarks (cs : List Char) : List Char :=
  let breaks := cs.reverse.takeWhile isBreak
  (if cs.head?.any isGap then ['2'] else []) ++
    (if breaks.isEmpty then ['-'] else if breaks.length = 1 && cs.length > 1 then [] else ['+'])

def literal (indent : Nat) (cs : List Char) : List Char :=
  ['|'] ++ literalMarks cs ++ ['\n'] ++ indented indent ([·]) true cs ++
    (if cs.getLast?.any isBreak then [] else ['\n'])

def textLines (indent : Nat) (text : String) : List Char :=
  let cs := text.toList
  if cs.any (· = '\n') then (if isLiteral cs then literal indent cs else doubleQuoted cs ++ ['\n'])
  else if !isAmbiguous text && isPlain cs then cs ++ ['\n']
  else if isSingle cs then singleQuoted indent cs ++ ['\n']
  else doubleQuoted cs ++ ['\n']

mutual

def valueLines? (indent : Nat) : Datum → Option (List Char)
  | .text s => some (' ' :: textLines (indent + 2) s)
  | .bool b => some (' ' :: (toString b).toList ++ ['\n'])
  | .int n => some (' ' :: (toString n).toList ++ ['\n'])
  | .map entries => do return '\n' :: (← entryLines? (indent + 2) entries)
  | .null | .float _ | .list _ => none

def entryLines? (indent : Nat) : List (String × Datum) → Option (List Char)
  | [] => some []
  | (key, value) :: rest => do
    let lines ← valueLines? indent value
    return List.replicate indent ' ' ++ key.toList ++ ':' :: lines ++ (← entryLines? indent rest)

end

def write? : Datum → Option String
  | .map entries => (entryLines? 0 entries).map String.ofList
  | _ => none

end LeadTime.Yaml
