import LeadTime.Document.Decoder
import LeadTime.Document.File
import LeadTime.Document.Json.Writer
import LeadTime.Document.Toml.Writer
import LeadTime.Document.Yaml.Writer
import LeadTime.Plan

/-! Settings of the compiler and of the output, of which each part may be left out. They are kept in a file that is
named, or in the first of a few names that exists. -/
namespace LeadTime

inductive OutputFormat where
  | summary
  | json
  | sql
  deriving DecidableEq, Repr

namespace OutputFormat

def all : List OutputFormat := [.summary, .json, .sql]

def name : OutputFormat → String
  | .summary => "summary"
  | .json => "json"
  | .sql => "sql"

end OutputFormat

structure OutputSettings where
  format : OutputFormat
  pretty : Bool
  deriving DecidableEq, Repr

def OutputSettings.standard : OutputSettings := ⟨.summary, false⟩

structure Settings where
  compiler : CompilerSettings
  output : OutputSettings
  deriving DecidableEq, Repr

def Settings.standard : Settings := ⟨.standard, .standard⟩

open Decoder

variable {ν : Type} [Node ν]

def CompilerSettings.decode (node : ν) : Option CompilerSettings := do
  let [schema, correlation, pageSize] ←
    record ["schema", "pr-issue-correlation", "default-page-size"] node | none
  return {
    schema := ← required text schema
    prIssueCorrelation := ← required bool correlation
    defaultPageSize := ← required uint64 pageSize }

def OutputSettings.decode (node : ν) : Option OutputSettings := do
  let [format, pretty] ← record ["format", "pretty"] node | none
  return {
    format := ← orElse .summary (word OutputFormat.all OutputFormat.name) format
    pretty := ← orElse false bool pretty }

def Settings.decode (node : ν) : Option Settings := do
  let [compiler, output] ← record ["compiler", "output"] node | none
  return {
    compiler := ← orElse .standard CompilerSettings.decode compiler
    output := ← orElse .standard OutputSettings.decode output }

def CompilerSettings.encode (s : CompilerSettings) : Datum :=
  .map [("schema", .text s.schema), ("pr-issue-correlation", .bool s.prIssueCorrelation),
    ("default-page-size", .int s.defaultPageSize.toNat)]

def OutputSettings.encode (s : OutputSettings) : Datum :=
  .map [("format", .text s.format.name), ("pretty", .bool s.pretty)]

def Settings.encode (s : Settings) : Datum :=
  .map [("compiler", s.compiler.encode), ("output", s.output.encode)]

namespace Settings

/-- The names that are looked for, in this order. -/
def fileNames : List String := ["leadlens.toml", "leadlens.json", "leadlens.yaml", "leadlens.yml"]

/-- The file to load: the given one, or the first that there is. -/
def path? (files : Files) (given : Option String) : Option String :=
  match given with
  | some path => some path
  | none => fileNames.find? fun name => files name ≠ .missing

/-- Loads settings; where there is no file, they are the standard ones. -/
def load (files : Files) (given : Option String) : Except DocumentError Settings :=
  match path? files given with
  | some path => files.load Settings.decode path
  | none => .ok .standard

/-- The text to keep at a path, in the format of its name; TOML under any other. TOML has no integers beyond 64 bits
with a sign. -/
def fileText? (s : Settings) (path : String) : Option String :=
  match DocumentFormat.ofPath? path with
  | some .json => some (Json.indented 0 s.encode)
  | some .yaml => Yaml.write? s.encode
  | some .toml | none => Toml.write? s.encode

end Settings
end LeadTime
