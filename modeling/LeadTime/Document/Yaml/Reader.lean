import LeadTime.Document.Yaml.Mark
import LeadTime.Document.Yaml.Resolve
import LeadTime.Document.Yaml.Scalar

/-! YAML text as nodes: maps and lists by indentation or between brackets, and scalars. A text holds one document. -/
namespace LeadTime.Yaml

def flowItems? {α : Type} (item : Place → Option (α × Place)) (close : Char) :
    Nat → Place → Option (List α × Place)
  | 0, _ => none
  | fuel + 1, p => do
    let q := p.flowToken
    if q.rest.head? = some close then return ([], q.skip 1)
    let (a, q) ← item q
    let q := q.flowToken
    match q.rest with
    | ',' :: _ =>
      let (as, last) ← flowItems? item close fuel (q.skip 1)
      return (a :: as, last)
    | c :: _ => if c = close then return ([a], q.skip 1) else none
    | [] => none

/-- How many bytes a key may take up to its colon. -/
def keyLimit : Nat := 1024

/-- The place after the colon of a key that begins at `p` and ends at `q`, if it is on the key's line and the key is
not too long. -/
def afterColon? (p q : Place) : Option Place :=
  let colon := q.skipBlanks
  let key := String.ofList (p.rest.take (colon.column - p.column))
  if colon.rest.head? = some ':' && p.line = q.line && key.utf8ByteSize ≤ keyLimit then some (colon.skip 1) else none

abbrev FlowReader := Place → Option (Written × Place)

def flowRest? (node : FlowReader) (p : Place) : Option (Written × Place) :=
  let q := p.flowToken
  match q.rest with
  | ',' :: _ | ']' :: _ | '\x7d' :: _ => some (.empty, q)
  | _ => node q

/-- A key between brackets and its value, if it has one. After a question mark it has, and both may be left out. -/
def flowPair? (node : FlowReader) (p : Place) : Option ((Written × Option Written) × Place) :=
  if p.rest.head? = some '?' then do
    let q := (p.skip 1).flowToken
    let (key, q) ← if q.rest.head? = some ':' then some (.empty, q) else flowRest? node q
    let colon := q.flowToken
    if colon.rest.head? = some ':' then
      let (value, last) ← flowRest? node (colon.skip 1)
      return ((key, some value), last)
    return ((key, some .empty), q)
  else do
    let (key, q) ← node p
    match afterColon? p q with
    | some colon =>
      let (value, last) ← flowRest? node colon
      return ((key, some value), last)
    | none => return ((key, none), q)

/-- An item of a list between brackets; a key and its value are a map of one entry. -/
def flowItem? (node : FlowReader) (p : Place) : Option (Written × Place) :=
  (flowPair? node p).map fun ((key, value), q) =>
    (match value with
      | some value => .map .none [(key, value)]
      | none => key, q)

/-- An entry of a map between brackets; a key alone has an empty value. -/
def flowMember? (node : FlowReader) (p : Place) : Option ((Written × Written) × Place) :=
  (flowPair? node p).map fun ((key, value), q) => ((key, value.getD .empty), q)

/-- A scalar, a list or a map between brackets, or a reference, inside a block whose contents reach the margin; `fuel`
bounds how many there are inside each other. -/
def flowNode? (margin : Nat) : (fuel : Nat) → FlowReader
  | 0, _ => none
  | fuel + 1, p => do
    let (marks, m, q) ← marks? true p
    let (node, last) ← match q.rest with
      | '*' :: _ => (anchor? (q.skip 1)).map fun (name, last) => (.reference name, last)
      | '[' :: rest =>
        (flowItems? (flowItem? (flowNode? margin fuel)) ']' rest.length.succ (q.skip 1)).map fun (items, last) =>
          (.list .none items, last)
      | '\x7b' :: rest =>
        (flowItems? (flowMember? (flowNode? margin fuel)) '\x7d' rest.length.succ (q.skip 1)).map fun (entries, last) =>
          (.map .none entries, last)
      | ',' :: _ | ']' :: _ | '\x7d' :: _ | ':' :: _ => if marks.isNone then none else some (.empty, m)
      | _ => (scalar? true margin q).map fun (node, last, _) => (node, last)
    return (← node.marked? marks, last)

def atSign (sign : Char) : List Char → Bool
  | [] => false
  | c :: rest => c = sign && atGap rest

def atDash (s : List Char) : Bool := atSign '-' s

def atBar (s : List Char) : Bool := s.head?.any fun c => c = '|' || c = '>'

/-- Reads a node inside a block: its contents reach the margin, a list that belongs to a key may stand at the column
before it, and it may be a block itself where it is `fresh`, which is at the start of a line or after a dash. The place
after it is the next thing on a later line. -/
abbrev BlockReader := (margin : Nat) → (hasKey fresh : Bool) → Place → Option (Written × Place)

/-- Whether what comes next does not belong inside a block. The bar of a block scalar may stand at the column before
the margin. -/
def isAside (margin : Nat) (hasKey : Bool) (p : Place) : Bool :=
  p.rest.isEmpty || p.column + 1 < margin ||
    (p.column + 1 = margin && !(hasKey && atDash p.rest) && !atBar p.rest)

/-- The place after the colon of a key in a block, which a gap has to follow. -/
def blockColon? (p q : Place) : Option Place := (afterColon? p q).filter (atGap ·.rest)

/-- A node of one line at `q` after its marks, which end at `m`: the node, the place where it ends, and the next
thing. -/
def lineNode? (margin : Nat) (marks : Marks) (m q : Place) : Option (Written × Place × Place) := do
  let (node, last, next) ← match q.rest with
    | '*' :: _ | '[' :: _ | '\x7b' :: _ =>
      (flowNode? margin q.rest.length.succ q).map fun (node, last) => (node, last, last.token)
    | s => if atSign ':' s && !marks.isNone then some (.empty, m, q) else scalar? false margin q
  return (← node.marked? marks, last, next)

def blockKey? (p : Place) : Option (Written × Place) := do
  let (marks, m, q) ← marks? false p
  let (key, q, _) ← lineNode? (p.column + 1) marks m q
  return (key, ← blockColon? p q)

/-- An entry of a map whose keys stand at `column`. After a question mark the key may be a block, and the colon of its
value stands under the question mark. -/
def blockEntry? (node : BlockReader) (column : Nat) (p : Place) : Option ((Written × Written) × Place) := do
  if atSign '?' p.rest then
    let (key, q) ← node (column + 1) true true (p.skip 1).itemToken
    if q.column = column && atSign ':' q.rest then
      let (value, last) ← node (column + 1) true true (q.skip 1).itemToken
      return ((key, value), last)
    return ((key, .empty), q)
  let (key, colon) ← blockKey? p
  let q := colon.token
  let (value, last) ← node (column + 1) true (colon.line < q.line) q
  return ((key, value), last)

def blockEntries? (node : BlockReader) (column : Nat) : Nat → Place → Option (List (Written × Written) × Place)
  | 0, _ => none
  | fuel + 1, p => do
    let (entry, q) ← blockEntry? node column p
    if q.rest.isEmpty || q.column < column then return ([entry], q)
    if q.column ≠ column then none
    let (entries, last) ← blockEntries? node column fuel q
    return (entry :: entries, last)

def blockItems? (node : BlockReader) (column : Nat) : Nat → Place → Option (List Written × Place)
  | 0, _ => none
  | fuel + 1, p => do
    let (item, q) ← node (column + 1) false true (p.skip 1).itemToken
    if q.rest.isEmpty || q.column < column || (q.column = column && !atDash q.rest) then return ([item], q)
    if q.column ≠ column then none
    let (items, last) ← blockItems? node column fuel q
    return (item :: items, last)

def blockNode? : (fuel : Nat) → BlockReader
  | 0 => fun _ _ _ _ => none
  | fuel + 1 => fun margin hasKey fresh p => do
    if isAside margin hasKey p then return (.empty, p)
    let (marks, m, q) ← marks? false p
    let size := q.rest.length.succ
    if !marks.isNone && m.token.isPast m then
      let (node, next) ← blockNode? fuel margin hasKey true m.token
      return (← node.marked? marks, next)
    if atBar q.rest then
      let (node, next) ← blockScalar? margin q
      return (← node.marked? marks, next)
    if atDash q.rest then
      if !fresh || !marks.isNone then none
      let (items, next) ← blockItems? (blockNode? fuel) q.column size q
      return (.list .none items, next)
    let isMap := atSign '?' q.rest
    let line := if isMap then none else lineNode? margin marks m q
    if isMap || line.any fun (_, last, _) => (blockColon? p last).isSome then
      if !fresh then none
      let (entries, next) ← blockEntries? (blockNode? fuel) p.column size p
      return (.map .none entries, next)
    let (node, last, next) ← line
    if next.isPast last then return (node, next) else none

def plainBreaks : List Char → List Char
  | [] => []
  | '\r' :: '\n' :: rest => '\n' :: plainBreaks rest
  | '\r' :: rest => '\n' :: plainBreaks rest
  | '\u0085' :: rest => '\n' :: plainBreaks rest
  | c :: rest => c :: plainBreaks rest

def isDocumentChar (c : Char) : Bool :=
  let n := c.toNat
  n = 0x09 || n = 0x0A || n = 0x0D || (0x20 ≤ n && n ≤ 0x7E) || n = 0x85 ||
    (0xA0 ≤ n && n ≠ 0xFEFF && n ≠ 0xFFFE && n ≠ 0xFFFF)

def atMark (mark : Char) (s : List Char) : Bool :=
  (s.take 3).length = 3 && (s.take 3).all (· = mark) && atGap (s.drop 3)

/-- The lines before one that begins or ends a document, and that line with the rest. -/
def untilMark (lineStart : Bool) : List Char → List Char × List Char
  | [] => ([], [])
  | c :: rest =>
    if lineStart && (atMark '-' (c :: rest) || atMark '.' (c :: rest)) then ([], c :: rest)
    else
      let (before, after) := untilMark (isBreak c) rest
      (c :: before, after)

def endsText (s : List Char) : Bool :=
  s.isEmpty || (atMark '.' s && (Place.start (s.drop 3)).token.rest.isEmpty)

/-- The node of a document from its first thing on; a document without one is empty. -/
def document? (fresh : Bool) (p : Place) : Option Written := do
  let (node, last) ← blockNode? p.rest.length.succ 0 false fresh p
  if last.rest.isEmpty then some node else none

/-- The node of a document after the line that begins it, at whose start `p` is. -/
def begun? (p : Place) : Option Written :=
  let (body, after) := untilMark false (p.rest.drop 3)
  let q := Place.token ⟨p.line, 3, body⟩
  if endsText after then document? (p.line < q.line) q else none

def bareDocument? (p : Place) : Option Written :=
  let (body, after) := untilMark (p.column = 0) p.rest
  if endsText after then document? true ⟨p.line, p.column, body⟩ else none

def written? (text : String) : Option (Written × Handles) := do
  let s := if text.front = '\uFEFF' then text.toList.tail else text.toList
  if !s.all isDocumentChar then none
  let p := (Place.start (plainBreaks s)).itemToken
  let (directives, q) ← directives? s.length.succ p
  let begins (mark : Char) : Bool := q.column = 0 && atMark mark q.rest
  if begins '-' then return (← begun? q, directives.handles)
  if q.line ≠ p.line || begins '.' then none
  return (← bareDocument? q, directives.handles)

def read? (text : String) : Option Yaml := do
  let (written, handles) ← written? text
  written.resolve? handles

end LeadTime.Yaml
