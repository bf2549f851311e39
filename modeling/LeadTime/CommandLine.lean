import LeadTime.CommandLine.Invocation
import LeadTime.CommandLine.Outcome
import LeadTime.Report
import LeadTime.Request.Decode
import LeadTime.Settings.File

/-! The program as a function of its arguments and of what it finds around it. Settings are loaded first, then the
request; the result is printed or goes to a file. -/
namespace LeadTime.CommandLine

/-- What a run can see: files, variables, and whether a terminal shows its output. -/
structure Surroundings where
  files : Files
  environment : String → Option String
  terminal : Bool

namespace Surroundings

/-- Whether styles are on: on a terminal, unless it is switched off; elsewhere, if it is switched on. -/
def color (s : Surroundings) : Bool :=
  let capable := s.terminal && (s.environment "NO_COLOR").isNone && (s.environment "TERM").any (· ≠ "dumb")
  (capable && s.environment "CLICOLOR" ≠ some "0") || (s.environment "CLICOLOR_FORCE").getD "0" ≠ "0"

/-- The settings file that is used where no switch names one. -/
def config? (s : Surroundings) : Option String := s.environment "LEADLENS_CONFIG"

end Surroundings

namespace Invocation

def sources (i : Invocation) : List String :=
  (match i.config with
    | some path => [path]
    | none => Settings.fileNames) ++ [i.request]

def compiler (i : Invocation) (settings : Settings) : Compiler where
  settings := { settings.compiler with schema := i.schema.getD settings.compiler.schema }
  rules := .criteria

def report (i : Invocation) (settings : Settings) (color : Bool) (r : Request) : Except Failure String :=
  let format := i.format.getD settings.output.format
  let pretty := i.pretty || settings.output.pretty
  let failure (activity : String) (e : Error) : Failure :=
    ⟨"Failed to " ++ activity ++ " pipeline " ++ r.pipeline.name, e.chain⟩
  match i.command with
  | .compile =>
    (((i.compiler settings).compile r).mapError (failure "compile")).map fun q => q.report format pretty color
  | .stages =>
    ((Pipeline.assemble r.pipeline r.query).mapError (failure "assemble")).map fun p =>
      (StageMap.ofStages p.stages).report format pretty

def result (i : Invocation) (files : Files) (color : Bool) : Except Failure String := do
  let unloaded (e : DocumentError) : Failure := ⟨e.message, []⟩
  let settings ← (Settings.load files i.config).mapError unloaded
  let request ← (files.load Request.decode i.request).mapError unloaded
  i.report settings color request

def run (i : Invocation) (files : Files) (color : Bool) : Outcome :=
  match i.result files color, i.output with
  | .error failure, _ => .failed failure
  | .ok text, none => .printed text
  | .ok text, some path => .saved path text

end Invocation

def version : String := "leadlens 0.3.0\n"

/-- Two columns, the first as wide as its widest text. -/
def columns (rows : List (String × String)) : String :=
  let width := (rows.map (·.1.length)).foldl max 0
  "".intercalate (rows.map fun (left, right) =>
    "  " ++ left ++ String.ofList (List.replicate (width - left.length) ' ') ++ "  " ++ right ++ "\n")

def Switch.usage (s : Switch) : String :=
  "-" ++ s.short.toString ++ ", --" ++ s.long ++ if s.takesValue then " <" ++ s.long.toUpper ++ ">" else ""

def help (topic : Option Command) : String :=
  let options := "Options:\n" ++ columns ((switchesOf topic).map fun s => (s.usage, s.about))
  match topic with
  | none =>
    "Lead-time pipeline compiler\n\nUsage: leadlens [OPTIONS] <COMMAND>\n\nCommands:\n" ++
      columns (Command.all.map fun c => (c.name, c.about)) ++ "\n" ++ options
  | some c =>
    c.about ++ "\n\nUsage: leadlens " ++ c.name ++ " [OPTIONS] <REQUEST>\n\nArguments:\n" ++
      columns [("<REQUEST>", "Request document: pipeline, query and entity filters")] ++ "\n" ++ options

def Ending.outcome : Ending → Outcome
  | .refused => .refused
  | .help topic => .printed (CommandLine.help topic)
  | .version => .printed CommandLine.version

def run (s : Surroundings) (arguments : List String) : Outcome :=
  match Invocation.ofArguments s.config? arguments with
  | .ok i => i.run s.files s.color
  | .error ending => ending.outcome

end LeadTime.CommandLine
