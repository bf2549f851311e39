/-! What a YAML text says as it stands: nodes with the marks in front of them, and references to nodes that have an
anchor. -/
namespace LeadTime.Yaml

inductive Style where
  | plain
  | literal
  | quoted
  deriving DecidableEq, Repr

/-- A tag as it is written. Its handle stands for how the tag begins; without one the tag is written in full. -/
structure ShortTag where
  handle : String
  rest : String
  deriving DecidableEq, Repr

/-- What may stand in front of a node: a name to refer to it by, and a tag. -/
structure Marks where
  anchor : Option String
  tag : Option ShortTag
  deriving DecidableEq, Repr

namespace Marks

def none : Marks := ⟨.none, .none⟩

def isNone (m : Marks) : Bool := m.anchor.isNone && m.tag.isNone

def both? (m n : Marks) : Option Marks :=
  if (m.anchor.isSome && n.anchor.isSome) || (m.tag.isSome && n.tag.isSome) then .none
  else some ⟨m.anchor.or n.anchor, m.tag.or n.tag⟩

end Marks

inductive Written where
  | scalar (marks : Marks) (style : Style) (text : String)
  | list (marks : Marks) (items : List Written)
  | map (marks : Marks) (entries : List (Written × Written))
  | reference (anchor : String)
  deriving Inhabited

namespace Written

def empty : Written := .scalar .none .plain ""

def marked? (marks : Marks) (w : Written) : Option Written :=
  if marks.isNone then some w
  else
    match w with
    | .scalar own style text => (marks.both? own).map (.scalar · style text)
    | .list own items => (marks.both? own).map (.list · items)
    | .map own entries => (marks.both? own).map (.map · entries)
    | .reference _ => none

mutual

/-- How many scalars, references and brackets there are. -/
def size : Written → Nat
  | .scalar .. | .reference _ => 1
  | .list _ items => sizeItems items + 2
  | .map _ entries => sizeEntries entries + 2

def sizeItems : List Written → Nat
  | [] => 0
  | item :: rest => item.size + sizeItems rest

def sizeEntries : List (Written × Written) → Nat
  | [] => 0
  | (key, value) :: rest => key.size + value.size + sizeEntries rest

end

end Written
end LeadTime.Yaml
