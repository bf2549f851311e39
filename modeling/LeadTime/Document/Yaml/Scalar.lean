import LeadTime.Document.Yaml.Place
import LeadTime.Document.Yaml.Written
import LeadTime.Text.Chars

/-! Reading scalars of YAML: unquoted, in single or double quotes, and block scalars. A line break inside a scalar
counts as a blank, and the breaks of blank lines count as breaks; a literal block keeps its lines. -/
namespace LeadTime.Yaml

def isFlowMark (c : Char) : Bool := c = ',' || c = '[' || c = ']' || c = '\x7b' || c = '\x7d'

def isIndicator (c : Char) : Bool :=
  isFlowMark c || c ∈ ['#', '&', '*', '!', '|', '>', '\'', '"', '%', '@', '\x60']

/-- What line breaks between two words stand for. -/
def folded : List Char → List Char
  | ['\n'] => [' ']
  | '\n' :: breaks => breaks
  | breaks => breaks

def prepend (cs : List Char) (read : Option (List Char × Place)) : Option (List Char × Place) :=
  read.map fun (ds, p) => (cs ++ ds, p)

def startsPlain (flow : Bool) : List Char → Bool
  | [] => false
  | c :: rest =>
    if c = '-' then !atGap rest
    else if c = '?' || c = ':' then !flow && !atGap rest
    else !isGap c && !isIndicator c

/-- Whether what comes next, which is no blank, ends an unquoted scalar. -/
def stopsPlain (flow : Bool) : List Char → Bool
  | [] => true
  | ':' :: rest => atGap rest || (flow && rest.head?.any fun c => isFlowMark c || c = '?')
  | c :: _ => isBreak c || (flow && isFlowMark c)

/-- Whether an unquoted scalar ends here; blanks before its end and before a comment do not belong to it. -/
def endsPlain (flow : Bool) (s : List Char) : Bool :=
  let next := s.dropWhile isBlank
  stopsPlain flow next || (s.head?.any isBlank && next.head? = some '#')

def plainRun (flow : Bool) : List Char → List Char
  | [] => []
  | c :: rest => if endsPlain flow (c :: rest) then [] else c :: plainRun flow rest

/-- Whether a colon comes next with no gap after it, where an unquoted scalar has ended. -/
def hasStuckColon : List Char → Bool
  | ':' :: rest => !atGap rest
  | _ => false

/-- An unquoted scalar, the place where it ends, and the next thing. It goes on over lines that reach the margin, or
anywhere between brackets. -/
def plainBody? (flow : Bool) (margin : Nat) : Nat → Place → Option (List Char × Place × Place)
  | 0, _ => none
  | fuel + 1, p =>
    let run := plainRun flow p.rest
    let stop := p.skip run.length
    let (breaks, next) := stop.gap
    if hasEarlyTab margin false stop.column stop.rest || hasStuckColon next.rest && stopsPlain flow next.rest then none
    else if breaks.isEmpty then some (run, stop, if flow then stop.flowToken else stop.token)
    else if (flow || margin ≤ next.column) && next.rest.head? ≠ some '#' && !stopsPlain flow next.rest then
      (plainBody? flow margin fuel next).map fun (cs, last) => (run ++ folded breaks ++ cs, last)
    else some (run, stop, if flow then next.flowToken else next.itemToken)

/-- Blanks as they stand, or the line breaks among them folded, and the place after. -/
def Place.fold (p : Place) : List Char × Place :=
  let (breaks, next) := p.gap
  (if breaks.isEmpty then p.rest.takeWhile isBlank else folded breaks, next)

/-- The rest of a scalar in single quotes; a quote inside is written twice. -/
def singleBody? : Nat → Place → Option (List Char × Place)
  | 0, _ => none
  | fuel + 1, p =>
    match p.rest with
    | [] => none
    | '\'' :: '\'' :: _ => prepend ['\''] (singleBody? fuel (p.skip 2))
    | '\'' :: _ => some ([], p.skip 1)
    | c :: _ =>
      if isGap c then prepend p.fold.1 (singleBody? fuel p.fold.2)
      else prepend [c] (singleBody? fuel (p.skip 1))

def simpleEscape? : Char → Option Char
  | '0' => some '\x00'
  | 'a' => some '\x07'
  | 'b' => some '\x08'
  | 't' => some '\t'
  | 'n' => some '\n'
  | 'v' => some '\x0b'
  | 'f' => some '\x0c'
  | 'r' => some '\r'
  | 'e' => some '\x1b'
  | ' ' => some ' '
  | '\t' => some '\t'
  | '"' => some '"'
  | '/' => some '/'
  | '\\' => some '\\'
  | 'N' => some '\u0085'
  | '_' => some '\u00a0'
  | 'L' => some '\u2028'
  | 'P' => some '\u2029'
  | _ => none

def hexEscape? (count : Nat) (s : List Char) : Option (Char × Nat) :=
  if s.length < count then none else (Text.charOfHex? (s.take count)).map (·, count + 1)

/-- The character after a backslash, and how many characters it takes to write. -/
def escape? : List Char → Option (Char × Nat)
  | 'x' :: s => hexEscape? 2 (s.take 2)
  | 'u' :: s => hexEscape? 4 (s.take 4)
  | 'U' :: s => hexEscape? 8 (s.take 8)
  | c :: _ => (simpleEscape? c).map (·, 1)
  | [] => none

/-- The rest of a scalar in double quotes. A backslash at the end of a line joins it to the next. -/
def doubleBody? : Nat → Place → Option (List Char × Place)
  | 0, _ => none
  | fuel + 1, p =>
    match p.rest with
    | [] => none
    | '"' :: _ => some ([], p.skip 1)
    | '\\' :: c :: _ =>
      if isBreak c then
        let (breaks, next) := (p.skip 1).gap
        prepend breaks.tail (doubleBody? fuel next)
      else do
        let (c, count) ← escape? (p.rest.drop 1)
        prepend [c] (doubleBody? fuel (p.skip (count + 1)))
    | ['\\'] => none
    | c :: _ =>
      if isGap c then prepend p.fold.1 (doubleBody? fuel p.fold.2)
      else prepend [c] (doubleBody? fuel (p.skip 1))

/-- What becomes of the line breaks at the end of a block scalar. -/
inductive Chomp where
  | drop
  | one
  | keep
  deriving DecidableEq, Repr

def Chomp.ofMark? : Char → Option Chomp
  | '-' => some .drop
  | '+' => some .keep
  | _ => none

def indentOfMark? (c : Char) : Option Nat := (Text.digitValue? 10 c).filter (0 < ·)

/-- The marks after the bar of a block scalar: how it ends and, where that is written, how far it is indented. -/
def blockMarks? : List Char → Option (Chomp × Option Nat)
  | [] => some (.one, none)
  | [c] =>
    match Chomp.ofMark? c with
    | some chomp => some (chomp, none)
    | none => (indentOfMark? c).map fun n => (.one, some n)
  | [c, d] =>
    match Chomp.ofMark? c with
    | some chomp => (indentOfMark? d).map fun n => (chomp, some n)
    | none => do return (← Chomp.ofMark? d, some (← indentOfMark? c))
  | _ => none

/-- Moves over blank lines and the indent of the line after them, up to the given one; a tab may not stand there. Yields
the breaks and the furthest column too. -/
def indentFrom? (limit : Option Nat) (line column furthest : Nat) : List Char → Option (List Char × Nat × Place)
  | [] => some ([], max furthest column, ⟨line, column, []⟩)
  | c :: rest =>
    let inside := limit.all (column < ·)
    if inside && c = ' ' then indentFrom? limit line (column + 1) furthest rest
    else if inside && c = '\t' then none
    else if isBreak c then
      (indentFrom? limit (line + 1) 0 (max furthest column) rest).map fun (breaks, found) => (c :: breaks, found)
    else some ([], max furthest column, ⟨line, column, c :: rest⟩)

def Place.indent? (p : Place) (limit : Option Nat) : Option (List Char × Nat × Place) :=
  indentFrom? limit p.line p.column 0 p.rest

/-- The line breaks between two lines of a block scalar: that of the first line, and those of the blank lines after it.
Where lines are folded, one break between two lines that do not begin with a blank counts as a blank. -/
structure LineEnd where
  own : List Char
  blank : List Char

def LineEnd.joint (e : LineEnd) (fold : Bool) : List Char :=
  if fold && e.own = ['\n'] then folded (e.own ++ e.blank) else e.own ++ e.blank

def Chomp.apply (chomp : Chomp) (e : LineEnd) : List Char :=
  match chomp with
  | .drop => []
  | .one => e.own
  | .keep => e.own ++ e.blank

/-- The lines of a block scalar from the indent of one on, after the breaks `e` of the line before it. It ends before a
line that is indented less. -/
def blockLines? (fold : Bool) (chomp : Chomp) (indent : Nat) :
    Nat → LineEnd → (wasBlank : Bool) → Place → Option (List Char × Place)
  | 0, _, _, _ => none
  | fuel + 1, e, wasBlank, p =>
    if p.column = indent && !p.rest.isEmpty then do
      let isBlank := p.rest.head?.any isBlank
      let line := p.rest.takeWhile (!isBreak ·)
      let (own, q) : List Char × Place := match p.rest.drop line.length with
        | c :: rest => ([c], ⟨p.line + 1, 0, rest⟩)
        | [] => ([], p.skip line.length)
      let (blank, _, q) ← q.indent? (some indent)
      let (cs, last) ← blockLines? fold chomp indent fuel ⟨own, blank⟩ isBlank q
      return (e.joint (fold && !wasBlank && !isBlank) ++ line ++ cs, last)
    else some (chomp.apply e, p)

def blockScalar? (margin : Nat) (p : Place) : Option (Written × Place) := do
  let fold := p.rest.head? = some '>'
  let scalar (cs : List Char) : Written := .scalar .none (if fold then .quoted else .literal) (String.ofList cs)
  let marks := p.rest.tail.takeWhile fun c => !isGap c && c ≠ '#'
  let (chomp, indent) ← blockMarks? marks
  let header := (p.skip (marks.length + 1)).skipBlanks.rest
  match if header.head? = some '#' then header.dropWhile (!isBreak ·) else header with
  | [] => return (scalar [], ⟨p.line, p.column, []⟩)
  | c :: rest =>
    if !isBreak c then none
    let body : Place := ⟨p.line + 1, 0, rest⟩
    let limit := indent.map fun n => if margin = 0 then n else margin - 1 + n
    let (breaks, furthest, q) ← body.indent? limit
    let indent := limit.getD (max furthest (max margin 1))
    let (cs, last) ← blockLines? fold chomp indent rest.length.succ ⟨[], breaks⟩ false q
    return (scalar cs, last.itemToken)

def scalar? (flow : Bool) (margin : Nat) (p : Place) : Option (Written × Place × Place) :=
  let fuel := p.rest.length.succ
  let quoted (read : Option (List Char × Place)) : Option (Written × Place × Place) :=
    read.map fun (cs, q) =>
      (.scalar .none .quoted (String.ofList cs), q, if flow then q.flowToken else q.token)
  match p.rest with
  | '\'' :: _ => quoted (singleBody? fuel (p.skip 1))
  | '"' :: _ => quoted (doubleBody? fuel (p.skip 1))
  | s =>
    if startsPlain flow s then
      (plainBody? flow margin fuel p).map fun (cs, found) => (.scalar .none .plain (String.ofList cs), found)
    else none

end LeadTime.Yaml
