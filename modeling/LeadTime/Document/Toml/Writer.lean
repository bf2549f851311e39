import LeadTime.Document.Datum

/-! TOML text of tables of texts, booleans and integers. A text stands between the quotes that need the fewest
escapes: one double quote, one single quote, three double quotes, three single quotes, in this order. -/
namespace LeadTime.Toml

/-- The greatest number of times that `mark` comes in a row, after `run` times already. -/
def longestRun (mark : Char) : (run : Nat) → List Char → Nat
  | _, [] => 0
  | run, c :: rest => if c = mark then max (run + 1) (longestRun mark (run + 1) rest) else longestRun mark 0 rest

/-- Controls that no text holds without an escape: all but the tab and the line break. -/
def isControl (c : Char) : Bool := (c.toNat < 0x20 && c ≠ '\t' && c ≠ '\n') || c.toNat = 0x7F

inductive Quotes where
  | double
  | single
  | doubleLines
  | singleLines
  deriving DecidableEq, Repr

namespace Quotes

def mark : Quotes → List Char
  | .double => ['"']
  | .single => ['\'']
  | .doubleLines => ['"', '"', '"']
  | .singleLines => ['\'', '\'', '\'']

def holdLines : Quotes → Bool
  | .double | .single => false
  | .doubleLines | .singleLines => true

def haveEscapes : Quotes → Bool
  | .double | .doubleLines => true
  | .single | .singleLines => false

/-- The quotes for a text: the first that do without escapes, the tab apart, or else double ones. -/
def ofText (cs : List Char) : Quotes :=
  let lines := cs.any (· = '\n')
  let controls := cs.any isControl
  let backslash := cs.any (· = '\\')
  let doubles := longestRun '"' 0 cs
  let singles := longestRun '\'' 0 cs
  if !controls && !backslash && doubles = 0 && !lines then .double
  else if !controls && singles = 0 && !lines then .single
  else if !controls && !backslash && doubles ≤ 2 then .doubleLines
  else if !controls && singles ≤ 2 then .singleLines
  else if lines then .doubleLines
  else .double

end Quotes

def padded (width n : Nat) : List Char :=
  let ds := (Nat.toDigits 16 n).map Char.toUpper
  List.replicate (width - ds.length) '0' ++ ds

def escapedChar (lines : Bool) (c : Char) : List Char :=
  match c with
  | '\x08' => ['\\', 'b']
  | '\t' => ['\\', 't']
  | '\n' => if lines then ['\n'] else ['\\', 'n']
  | '\x0c' => ['\\', 'f']
  | '\r' => ['\\', 'r']
  | '\\' => ['\\', '\\']
  | c => if isControl c then '\\' :: 'u' :: padded 4 c.toNat else [c]

/-- A text where escapes are read. After `run` double quotes in a row without an escape, as many as there may be, the
next one has one. -/
def escaped (lines : Bool) : (run : Nat) → List Char → List Char
  | _, [] => []
  | run, c :: rest =>
    if c = '"' then
      if run < (if lines then 2 else 0) then c :: escaped lines (run + 1) rest
      else '\\' :: c :: escaped lines 0 rest
    else escapedChar lines c ++ escaped lines 0 rest

def quoted (text : String) : String :=
  let cs := text.toList
  let q := Quotes.ofText cs
  let opening := if q.holdLines && cs.any (· = '\n') then q.mark ++ ['\n'] else q.mark
  String.ofList (opening ++ (if q.haveEscapes then escaped q.holdLines 0 cs else cs) ++ q.mark)

/-- A value on its line, where it is a text, a boolean or an integer of 64 bits. -/
def valueText? : Datum → Option String
  | .text s => some (quoted s)
  | .bool b => some (toString b)
  | .int n => if -0x8000000000000000 ≤ n ∧ n < 0x8000000000000000 then some (toString n) else none
  | _ => none

def lineText? (entry : String × Datum) : Option String := do return entry.1 ++ " = " ++ (← valueText? entry.2) ++ "\n"

def tableText? (entry : String × Datum) : Option String :=
  match entry.2 with
  | .map entries => do
    let lines ← entries.mapM lineText?
    return "[" ++ entry.1 ++ "]\n" ++ "".intercalate lines
  | _ => none

def write? : Datum → Option String
  | .map entries => do return "\n".intercalate (← entries.mapM tableText?)
  | _ => none

end LeadTime.Toml
