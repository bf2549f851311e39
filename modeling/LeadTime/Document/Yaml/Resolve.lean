import LeadTime.Document.Yaml
import LeadTime.Document.Yaml.Directive

/-! From what a YAML text says to what it holds: tags in full, and the nodes that references stand for. A reference
stands for the node that had its anchor last. -/
namespace LeadTime.Yaml

/-- A node, and how many lists and maps there are inside each other. -/
structure Resolved where
  node : Yaml
  height : Nat

/-- The anchors so far. A name has the number of names before it, and a number has a node, which is nothing as long
as the node has not ended. -/
structure Anchors where
  names : List (String × Nat)
  nodes : List (Nat × Option Resolved)

namespace Anchors

def empty : Anchors := ⟨[], []⟩

def add (anchors : Anchors) (name : String) : Anchors × Nat :=
  let number := anchors.names.length
  (⟨(name, number) :: anchors.names.filter (·.1 ≠ name), (number, none) :: anchors.nodes⟩, number)

def finish (anchors : Anchors) (number : Nat) (found : Resolved) : Anchors :=
  { anchors with nodes := (number, some found) :: anchors.nodes }

def find? (anchors : Anchors) (name : String) : Option (Option Resolved) := do
  let (_, number) ← anchors.names.find? (·.1 = name)
  let (_, found) ← anchors.nodes.find? (·.1 = number)
  return found

end Anchors

/-- What resolving one document needs to know: the handles of its tags, and how many references may be followed. -/
structure Scope where
  handles : Handles
  limit : Nat

def Scope.tagged? (scope : Scope) (tag : Option ShortTag) (node : Yaml) : Option Yaml :=
  match tag with
  | none => some node
  | some tag =>
    if tag.handle = "" then some (tagged tag.rest node)
    else (scope.handles.start? tag.handle).map fun start => tagged (start ++ tag.rest) node

abbrev Resolver := StateT Anchors Option

def Scope.marked (scope : Scope) (marks : Marks) (inside : Resolver Resolved) : Resolver Resolved := do
  let tagged : Resolver Resolved := do
    let found ← inside
    return { found with node := ← scope.tagged? marks.tag found.node }
  match marks.anchor with
  | none => tagged
  | some name => do
    let number ← modifyGet fun anchors => ((anchors.add name).2, (anchors.add name).1)
    let found ← tagged
    modify (·.finish number found)
    return found

/-- A reference where `room` more lists and maps may nest. A node that refers to itself has no end. -/
def referred (limit room : Nat) : Option Resolved → Resolved
  | none => ⟨.tooDeep, 0⟩
  | some found => if found.height ≤ room then ⟨.reference limit found.node, found.height⟩ else ⟨.tooDeep, 0⟩

def nested (room : Nat) (node : Yaml) (heights : List Nat) : Resolved :=
  ⟨if room = 0 then .tooDeep else node, heights.foldl max 0 + 1⟩

mutual

def resolveNode (scope : Scope) (room : Nat) : Written → Resolver Resolved
  | .scalar marks style text => scope.marked marks (return ⟨.scalar none style text, 0⟩)
  | .list marks items => scope.marked marks do
    let found ← resolveItems scope (room - 1) items
    return nested room (.list (found.map Resolved.node)) (found.map Resolved.height)
  | .map marks entries => scope.marked marks do
    let found ← resolveEntries scope (room - 1) entries
    return nested room (.map (found.map fun (key, value) => (key.node, value.node)))
      (found.map fun (key, value) => max key.height value.height)
  | .reference name => do
    let found ← (← get).find? name
    return referred scope.limit room found

def resolveItems (scope : Scope) (room : Nat) : List Written → Resolver (List Resolved)
  | [] => return []
  | item :: rest => return (← resolveNode scope room item) :: (← resolveItems scope room rest)

def resolveEntries (scope : Scope) (room : Nat) : List (Written × Written) → Resolver (List (Resolved × Resolved))
  | [] => return []
  | (key, value) :: rest =>
    return (← resolveNode scope room key, ← resolveNode scope room value) :: (← resolveEntries scope room rest)

end

def nestingLimit : Nat := 128

/-- What a document holds. So many references may be followed as the document is large, a hundred times over. -/
def Written.resolve? (w : Written) (handles : Handles) : Option Yaml := do
  let (found, _) ← (resolveNode ⟨handles, w.size * 100⟩ nestingLimit w).run .empty
  return found.node

end LeadTime.Yaml
