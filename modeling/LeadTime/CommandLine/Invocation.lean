import LeadTime.CommandLine.Switch

/-! What a command line asks for. A switch is given once at most before the command and once at most after it; what
stands after the command goes first. -/
namespace LeadTime.CommandLine

structure Invocation where
  command : Command
  request : String
  format : Option OutputFormat
  schema : Option String
  config : Option String
  output : Option String
  pretty : Bool
  deriving Repr

/-- Why no command is run. -/
inductive Ending where
  | refused
  | help (topic : Option Command)
  | version
  deriving DecidableEq, Repr

/-- What the arguments before the command, or after it, give. -/
structure Given where
  switches : List (Switch × String)
  operands : List String

namespace Given

def nothing : Given := ⟨[], []⟩

def value? (g : Given) (s : Switch) : Option String := (g.switches.find? (·.1 = s)).map Prod.snd

def has (g : Given) (s : Switch) : Bool := (g.value? s).isSome

def add (level : Option Command) (g : Given) (s : Switch) (value : String) : Except Ending Given :=
  if s = .help then .error (.help level)
  else if s = .version then .error .version
  else if g.has s || !s.accepts value then .error .refused
  else .ok { g with switches := g.switches ++ [(s, value)] }

/-- A command has one operand, and it is not empty. -/
def addOperand (g : Given) (text : String) : Except Ending Given :=
  if g.operands.isEmpty && text ≠ "" then .ok { g with operands := [text] } else .error .refused

def isValue (text : String) : Bool := text.toList.head? ≠ some '-' || text = "-"

/-- Reads the arguments of a level. Before the command, its name ends the reading. -/
def read (level : Option Command) (g : Given) : List String → Except Ending (Given × List String)
  | [] => .ok (g, [])
  | arg :: rest =>
    match Word.ofText (switchesOf level) arg with
    | .unknown => .error .refused
    | .separator =>
      if level.isNone then .error .refused else do return (← rest.foldlM addOperand g, [])
    | .operand text => do
      let g ← g.addOperand text
      if level.isNone then return (g, rest) else read level g rest
    | .switches flags last => do
      let g ← flags.foldlM (fun g s => g.add level s "") g
      match last with
      | none => read level g rest
      | some (s, some value) => read level (← g.add level s value) rest
      | some (s, Option.none) =>
        match rest with
        | value :: rest => if isValue value then read level (← g.add level s value) rest else throw .refused
        | [] => throw .refused

end Given

namespace Invocation

/-- The command that a level after `outer` gives; `fallback` names the configuration where no switch does. -/
def ofGiven (command : Command) (fallback : Option String) (outer inner : Given) : Except Ending Invocation := do
  let [request] := inner.operands | throw .refused
  let value? (s : Switch) : Option String := inner.value? s <|> outer.value? s
  let unused := outer.has .config && inner.has .config
  if fallback = some "" && !unused then throw .refused
  return {
    command := command
    request := request
    format := (value? .format).bind fun name => OutputFormat.all.find? (·.name = name)
    schema := value? .schema
    config := value? .config <|> fallback
    output := value? .output
    pretty := outer.has .pretty || inner.has .pretty }

def helpTopic : List String → Ending
  | [] => .help none
  | [name] =>
    match Command.ofName? name with
    | some command => .help (some command)
    | none => if name = "help" then .help none else .refused
  | _ => .refused

def ofArguments (fallback : Option String) (arguments : List String) : Except Ending Invocation := do
  let (outer, rest) ← Given.nothing.read none arguments
  let [name] := outer.operands | throw .refused
  if name = "help" then throw (helpTopic rest)
  match Command.ofName? name with
  | none => throw .refused
  | some command =>
    let (inner, _) ← Given.nothing.read (some command) rest
    ofGiven command fallback outer inner

end Invocation
end LeadTime.CommandLine
