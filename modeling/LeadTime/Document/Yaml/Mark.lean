import LeadTime.Document.Yaml.Place
import LeadTime.Document.Yaml.Written
import LeadTime.Text.Chars

/-! Reading what stands in front of nodes: anchors and tags. -/
namespace LeadTime.Yaml

def isNameChar (c : Char) : Bool := c.isAlphanum || c = '-' || c = '_'

def anchor? (p : Place) : Option (String × Place) :=
  let name := p.rest.takeWhile isNameChar
  let q := p.skip name.length
  let ends := atGap q.rest || q.rest.head?.any (· ∈ ['?', ':', ',', ']', '\x7d', '%', '@', '\x60'])
  if name.isEmpty || !ends then none else some (String.ofList name, q)

/-- Characters of a tag; in one that is written `whole` some more. -/
def isTagChar (whole : Bool) (c : Char) : Bool :=
  isNameChar c || c ∈ ";/?:@&=+$.!~*'()%".toList || (whole && (c = ',' || c = '[' || c = ']'))

/-- The bytes of a tag: a percent sign and two digits stand for one. -/
def tagBytes? : List Char → Option (List UInt8)
  | [] => some []
  | '%' :: a :: b :: cs => do
    let byte := (← Text.hexValue? a) * 16 + (← Text.hexValue? b)
    return UInt8.ofNat byte :: (← tagBytes? cs)
  | c :: cs => if c = '%' then none else do return UInt8.ofNat c.toNat :: (← tagBytes? cs)

def tagText? (cs : List Char) : Option String := do String.fromUTF8? ⟨(← tagBytes? cs).toArray⟩

def tagBody? (p : Place) : Option (ShortTag × Place) :=
  match p.rest with
  | '<' :: s => do
    let cs := s.takeWhile (isTagChar true)
    let q := p.skip (cs.length + 1)
    if cs.isEmpty || q.rest.head? ≠ some '>' then none
    return (⟨"", ← tagText? cs⟩, q.skip 1)
  | s => do
    let name := s.takeWhile isNameChar
    let rest := s.drop name.length
    if rest.head? = some '!' then
      let cs := rest.tail.takeWhile (isTagChar false)
      if cs.isEmpty then none
      return (⟨String.ofList ('!' :: name ++ ['!']), ← tagText? cs⟩, p.skip (name.length + 1 + cs.length))
    else
      let cs := s.takeWhile (isTagChar false)
      let tag ← if cs.isEmpty then some (ShortTag.mk "" "!") else (tagText? cs).map (⟨"!", ·⟩)
      return (tag, p.skip cs.length)

def tag? (flow : Bool) (p : Place) : Option (ShortTag × Place) :=
  (tagBody? p).filter fun (_, q) => atGap q.rest || (flow && q.rest.head? = some ',')

def mark? (flow : Bool) (p : Place) : Option (Marks × Place) :=
  match p.rest with
  | '&' :: _ => (anchor? (p.skip 1)).map fun (name, q) => (⟨some name, none⟩, q)
  | '!' :: _ => (tag? flow (p.skip 1)).map fun (tag, q) => (⟨none, some tag⟩, q)
  | _ => some (.none, p)

/-- The marks that begin at a place, in a block on one line, the place where the last one ends, and the next thing. -/
def marks? (flow : Bool) (p : Place) : Option (Marks × Place × Place) := do
  let next (q : Place) : Place := if flow then q.flowToken else q.skipBlanks
  let (first, q) ← mark? flow p
  if first.isNone then return (first, p, p)
  let (second, r) ← mark? flow (next q)
  if second.isNone then return (first, q, next q)
  return (← first.both? second, r, next r)

end LeadTime.Yaml
