import LeadTime.Document.Yaml.Mark

/-! The directives that may stand in front of a document: its version, and the handles of its tags. -/
namespace LeadTime.Yaml

abbrev Handles := List (String × String)

namespace Handles

def standard : Handles := [("!", "!"), ("!!", "tag:yaml.org,2002:")]

def start? (handles : Handles) (handle : String) : Option String := (handles.find? (·.1 = handle)).map Prod.snd

end Handles

structure Directives where
  hasVersion : Bool
  declared : Handles

namespace Directives

/-- A handle stands for what is declared, or else for what it always does. -/
def handles (d : Directives) : Handles := d.declared ++ .standard

/-- One more directive; neither the version nor a handle is given twice. -/
def version? (d : Directives) : Option Directives := if d.hasVersion then none else some { d with hasVersion := true }

def declare? (d : Directives) (handle start : String) : Option Directives :=
  if (d.declared.start? handle).isSome then none else some { d with declared := (handle, start) :: d.declared }

end Directives

def versionPart? (s : List Char) : Option (Nat × List Char) :=
  let digits := s.takeWhile Text.isDigit
  if digits.length ≤ 9 then (Text.natInBase? 10 digits).map (·, s.drop digits.length) else none

def version? (p : Place) : Option Place := do
  let (major, rest) ← versionPart? p.rest
  match rest with
  | '.' :: rest =>
    let (minor, rest) ← versionPart? rest
    if major = 1 && (minor = 1 || minor = 2) then some (p.skip (p.rest.length - rest.length)) else none
  | _ => none

def declaration? (p : Place) : Option (String × String × Place) :=
  match p.rest with
  | '!' :: s => do
    let name := s.takeWhile isNameChar
    let mark := (s.drop name.length).head? = some '!'
    if !name.isEmpty && !mark then none
    let handle := '!' :: name ++ (if mark then ['!'] else [])
    let q := (p.skip handle.length).skipBlanks
    let start := q.rest.takeWhile (isTagChar true)
    let last := q.skip start.length
    if start.isEmpty || q.column = p.column + handle.length || !atGap last.rest then none
    return (String.ofList handle, ← tagText? start, last)
  | _ => none

/-- The place of the next line, where nothing but a comment comes before. -/
def lineEnd? (p : Place) : Option Place :=
  let q := p.skipBlanks
  match if q.rest.head? = some '#' then q.rest.dropWhile (!isBreak ·) else q.rest with
  | [] => some ⟨p.line + 1, 0, []⟩
  | c :: rest => if isBreak c then some ⟨p.line + 1, 0, rest⟩ else none

def directive? (d : Directives) (p : Place) : Option (Directives × Place) := do
  let name := p.rest.tail.takeWhile isNameChar
  let q := p.skip (name.length + 1)
  if !atGap q.rest then none
  if name = ['Y', 'A', 'M', 'L'] then
    return (← d.version?, ← lineEnd? (← version? q.skipBlanks))
  if name = ['T', 'A', 'G'] then
    let (handle, start, last) ← declaration? q.skipBlanks
    return (← d.declare? handle start, ← lineEnd? last)
  none

def directivesFrom? (d : Directives) : Nat → Place → Option (Directives × Place)
  | 0, _ => none
  | fuel + 1, p =>
    if p.column = 0 && p.rest.head? = some '%' then do
      let (d, q) ← directive? d p
      directivesFrom? d fuel q.token
    else some (d, p)

def directives? (fuel : Nat) (p : Place) : Option (Directives × Place) := directivesFrom? ⟨false, []⟩ fuel p

end LeadTime.Yaml
