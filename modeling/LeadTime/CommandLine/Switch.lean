import LeadTime.Settings.File

/-! The words of a command line: commands, switches with and without values, and operands. -/
namespace LeadTime.CommandLine

inductive Command where
  | compile
  | stages
  deriving DecidableEq, Repr

namespace Command

def all : List Command := [.compile, .stages]

def name : Command → String
  | .compile => "compile"
  | .stages => "stages"

def about : Command → String
  | .compile => "Compile a request into SQL, a count query and parameter bindings"
  | .stages => "Print the assembled stage map of a request"

def ofName? (name : String) : Option Command := all.find? (·.name = name)

end Command

inductive Switch where
  | format
  | schema
  | config
  | output
  | pretty
  | help
  | version
  deriving DecidableEq, Repr

namespace Switch

def long : Switch → String
  | .format => "format"
  | .schema => "schema"
  | .config => "config"
  | .output => "output"
  | .pretty => "pretty"
  | .help => "help"
  | .version => "version"

def short : Switch → Char
  | .format => 'f'
  | .schema => 's'
  | .config => 'c'
  | .output => 'o'
  | .pretty => 'p'
  | .help => 'h'
  | .version => 'V'

def takesValue : Switch → Bool
  | .format | .schema | .config | .output => true
  | .pretty | .help | .version => false

def about : Switch → String
  | .format => "[possible values: " ++ ", ".intercalate (OutputFormat.all.map OutputFormat.name) ++ "]"
  | .schema => "Override the configured schema"
  | .config => "Configuration file (defaults to ./leadlens.\x7btoml,json,yaml,yml\x7d)"
  | .output | .pretty => ""
  | .help => "Print help"
  | .version => "Print version"

/-- Paths are not empty, and a format is one that there is. -/
def accepts (s : Switch) (value : String) : Bool :=
  match s with
  | .config | .output => value ≠ ""
  | .format => OutputFormat.all.any (·.name = value)
  | _ => true

end Switch

def switchesOf : Option Command → List Switch
  | none => [.config, .output, .pretty, .help, .version]
  | some .compile => [.format, .schema, .config, .output, .pretty, .help]
  | some .stages => [.format, .config, .output, .pretty, .help]

inductive Word where
  /-- Switches without values, then perhaps one with a value, which may be the next argument. -/
  | switches (flags : List Switch) (last : Option (Switch × Option String))
  | operand (text : String)
  /-- What says that only operands follow. -/
  | separator
  | unknown
  deriving Repr

namespace Word

/-- A value that is attached to a letter, a sign of equality between them or not. -/
def attached : List Char → Option String
  | [] => none
  | '=' :: value => some (String.ofList value)
  | value => some (String.ofList value)

/-- Switches by their letters, those before it first. -/
def ofLetters (known : List Switch) (flags : List Switch) : List Char → Word
  | [] => .switches flags none
  | c :: rest =>
    match known.find? (·.short = c) with
    | none => .unknown
    | some s =>
      if s.takesValue then .switches flags (some (s, attached rest))
      else ofLetters known (flags ++ [s]) rest

/-- A switch by its name, with a value after a sign of equality. -/
def ofLong (known : List Switch) (s : List Char) : Word :=
  let name := s.takeWhile (· ≠ '=')
  let value := match s.drop name.length with
    | [] => none
    | _ :: value => some (String.ofList value)
  match known.find? (·.long = String.ofList name), value with
  | none, _ => .unknown
  | some s, value =>
    if s.takesValue then .switches [] (some (s, value))
    else if value.isNone then .switches [s] none
    else .unknown

def ofText (known : List Switch) (text : String) : Word :=
  match text.toList with
  | ['-', '-'] => .separator
  | '-' :: '-' :: s => ofLong known s
  | '-' :: c :: s => ofLetters known [] (c :: s)
  | _ => .operand text

end Word

end LeadTime.CommandLine
