/-! Places in a YAML document, and moving on from one over blanks, comments and line breaks. -/
namespace LeadTime.Yaml

/-- What comes next, and on which line and column. -/
structure Place where
  line : Nat
  column : Nat
  rest : List Char

def isBlank (c : Char) : Bool := c = ' ' || c = '\t'

def isBreak (c : Char) : Bool := c = '\n' || c = '\u2028' || c = '\u2029'

def isGap (c : Char) : Bool := isBlank c || isBreak c

def atGap : List Char → Bool
  | [] => true
  | c :: _ => isGap c

/-- Moves over blanks and line breaks; yields the breaks. -/
def gapFrom (line column : Nat) : List Char → List Char × Place
  | [] => ([], ⟨line, column, []⟩)
  | c :: rest =>
    if isBreak c then
      let (breaks, p) := gapFrom (line + 1) 0 rest
      (c :: breaks, p)
    else if isBlank c then gapFrom line (column + 1) rest
    else ([], ⟨line, column, c :: rest⟩)

/-- Whether a tab stands before the margin of a line among the blanks and breaks that come next; `below` where a line
has begun. -/
def hasEarlyTab (margin : Nat) (below : Bool) (column : Nat) : List Char → Bool
  | [] => false
  | c :: rest =>
    if isBreak c then hasEarlyTab margin true 0 rest
    else if isBlank c then (below && c = '\t' && column < margin) || hasEarlyTab margin below (column + 1) rest
    else false

/-- Moves over blanks, line breaks and comments. Where `tabs` is false a tab is no blank; a line break makes it what
`flow` says. -/
def tokenFrom (flow tabs inComment : Bool) (line column : Nat) : List Char → Place
  | [] => ⟨line, column, []⟩
  | c :: rest =>
    if isBreak c then tokenFrom flow flow false (line + 1) 0 rest
    else if inComment || c = '#' then tokenFrom flow tabs true line (column + 1) rest
    else if c = ' ' || (tabs && c = '\t') then tokenFrom flow tabs false line (column + 1) rest
    else ⟨line, column, c :: rest⟩

namespace Place

def start (s : List Char) : Place := ⟨0, 0, s⟩

def skip (p : Place) (n : Nat) : Place := ⟨p.line, p.column + n, p.rest.drop n⟩

def skipBlanks (p : Place) : Place := p.skip (p.rest.takeWhile isBlank).length

def gap (p : Place) : List Char × Place := gapFrom p.line p.column p.rest

def flowToken (p : Place) : Place := tokenFrom true true false p.line p.column p.rest

def token (p : Place) : Place := tokenFrom false true false p.line p.column p.rest

/-- The next thing after a dash or at the start of a line, where no tab may stand. -/
def itemToken (p : Place) : Place := tokenFrom false false false p.line p.column p.rest

def isPast (q p : Place) : Bool := p.line < q.line || q.rest.isEmpty

end Place
end LeadTime.Yaml
