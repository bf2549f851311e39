import LeadTime.Document.Toml
import LeadTime.KeyMap

/-! Tables of a TOML document while it is read. How a table came to be decides what may still be added to it: a
header opens a table once, a dotted key adds to tables of dotted keys only, and a key is given once. -/
namespace LeadTime.Toml

inductive Origin where
  /-- By a header of its own. -/
  | header
  /-- On the way to a longer header. -/
  | path
  /-- By a dotted key. -/
  | dotted
  deriving DecidableEq

inductive Item where
  | value (value : Datum)
  | table (origin : Origin) (entries : List (String × Item))
  | tables (items : List (List (String × Item)))
  deriving Inhabited

abbrev Entries := List (String × Item)

def item? (entries : Entries) (key : String) : Option Item := (entries.find? (·.1 = key)).map Prod.snd

def changeLast (change : Entries → Option Entries) : List Entries → Option (List Entries)
  | [] => none
  | [table] => (change table).map ([·])
  | table :: rest => (changeLast change rest).map (table :: ·)

/-- Changes the table that a path of headers leads to. Tables that are missing are made on the way, and of several
tables under one name the last is meant. -/
def within : List String → (Entries → Option Entries) → Entries → Option Entries
  | [], change, entries => change entries
  | key :: path, change, entries =>
    match item? entries key with
    | none => (within path change []).map fun sub => entries ++ [(key, .table .path sub)]
    | some (.table origin sub) =>
      (within path change sub).map fun sub => putPair key (.table origin sub) entries
    | some (.tables items) =>
      (changeLast (within path change) items).map fun items => putPair key (.tables items) entries
    | some (.value _) => none

def openTable (key : String) (entries : Entries) : Option Entries :=
  match item? entries key with
  | none => some (entries ++ [(key, .table .header [])])
  | some (.table .path sub) => some (putPair key (.table .header sub) entries)
  | _ => none

def openElement (key : String) (entries : Entries) : Option Entries :=
  match item? entries key with
  | none => some (entries ++ [(key, .tables [[]])])
  | some (.tables items) => some (putPair key (.tables (items ++ [[]])) entries)
  | _ => none

def assign : List String → Datum → Entries → Option Entries
  | [], _, _ => none
  | [key], value, entries =>
    if (item? entries key).isNone then some (entries ++ [(key, .value value)]) else none
  | key :: path, value, entries =>
    match item? entries key with
    | none => (assign path value []).map fun sub => entries ++ [(key, .table .dotted sub)]
    | some (.table .dotted sub) =>
      (assign path value sub).map fun sub => putPair key (.table .dotted sub) entries
    | some (.table .path sub) =>
      if path.length = 1 then none
      else (assign path value sub).map fun sub => putPair key (.table .path sub) entries
    | some (.tables items) =>
      if path.length = 1 then none
      else (changeLast (assign path value) items).map fun items => putPair key (.tables items) entries
    | _ => none

mutual

def Item.datum : Item → Datum
  | .value d => d
  | .table _ entries => .map (entryData entries)
  | .tables items => .list (tableData items)

def entryData : List (String × Item) → List (String × Datum)
  | [] => []
  | (key, item) :: rest => (key, item.datum) :: entryData rest

def tableData : List (List (String × Item)) → List Datum
  | [] => []
  | entries :: rest => .map (entryData entries) :: tableData rest

end

inductive Statement where
  | table (path : List String)
  | element (path : List String)
  | assignment (path : List String) (value : Datum)

/-- A document so far, and the table that its last header opened. -/
structure State where
  root : Entries
  current : List String

def State.add (s : State) : Statement → Option State
  | .table path => do
    let root ← within path.dropLast (openTable (path.getLastD "")) s.root
    return ⟨root, path⟩
  | .element path => do
    let root ← within path.dropLast (openElement (path.getLastD "")) s.root
    return ⟨root, path⟩
  | .assignment path value => do
    let root ← within s.current (assign path value) s.root
    return ⟨root, s.current⟩

def ofStatements? (statements : List Statement) : Option Toml := do
  let state ← statements.foldlM State.add ⟨[], []⟩
  return ⟨.map (entryData state.root)⟩

end LeadTime.Toml
