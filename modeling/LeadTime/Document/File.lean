import LeadTime.Document.Json.Reader
import LeadTime.Document.Toml.Reader
import LeadTime.Document.Yaml.Reader

/-! Documents in files. The extension of a file's name says in which format it is written; under another name, or
without an extension, each format is tried in turn. -/
namespace LeadTime

inductive FileContent where
  | missing
  | unreadable
  | text (content : String)
  deriving DecidableEq, Repr

/-- The files that can be seen, by path. -/
abbrev Files := String → FileContent

def Files.ofList (entries : List (String × String)) : Files := fun path =>
  match entries.find? (·.1 = path) with
  | some entry => .text entry.2
  | none => .missing

inductive DocumentFormat where
  | toml
  | json
  | yaml
  deriving DecidableEq, Repr

namespace DocumentFormat

/-- All formats, in the order in which they are tried. -/
def all : List DocumentFormat := [.toml, .json, .yaml]

def title : DocumentFormat → String
  | .toml => "TOML"
  | .json => "JSON"
  | .yaml => "YAML"

def ofExtension? : String → Option DocumentFormat
  | "toml" => some .toml
  | "json" => some .json
  | "yaml" | "yml" => some .yaml
  | _ => none

/-- The last part of a path. -/
def fileName (path : String) : List Char :=
  ((path.toList.reverse.dropWhile (· = '/')).takeWhile (· ≠ '/')).reverse

/-- What a file's name has after its last dot, unless that is its first character. -/
def extension? (path : String) : Option String :=
  let name := fileName path
  let after := (name.reverse.takeWhile (· ≠ '.')).reverse
  let before := name.take (name.length - after.length)
  if before.length ≤ 1 || name = ['.', '.'] then none else some (String.ofList after)

def ofPath? (path : String) : Option DocumentFormat := (extension? path).bind ofExtension?

/-- The value of a text in this format, by a decoder that does for every format. -/
def decode? {α : Type} (format : DocumentFormat) (decode : {ν : Type} → [Node ν] → ν → Option α)
    (text : String) : Option α :=
  match format with
  | .toml => (Toml.read? text).bind decode
  | .json => (Json.read? text).bind decode
  | .yaml => (Yaml.read? text).bind decode

end DocumentFormat

inductive DocumentFault where
  | unreadable
  /-- Not a value in this format, or in none of them. -/
  | malformed (format : Option DocumentFormat)
  deriving DecidableEq, Repr

structure DocumentError where
  fault : DocumentFault
  path : String
  deriving DecidableEq, Repr

def DocumentFault.message : DocumentFault → String
  | .unreadable => "Failed to read file"
  | .malformed (some format) => "Failed to parse " ++ format.title
  | .malformed none => "Failed to parse file"

def DocumentError.message (e : DocumentError) : String := e.fault.message ++ ": " ++ e.path

def Files.load {α : Type} (files : Files) (decode : {ν : Type} → [Node ν] → ν → Option α) (path : String) :
    Except DocumentError α :=
  match files path with
  | .missing | .unreadable => .error ⟨.unreadable, path⟩
  | .text text =>
    let format := DocumentFormat.ofPath? path
    let tried := match format with
      | some f => [f]
      | none => DocumentFormat.all
    match tried.findSome? fun f => f.decode? decode text with
    | some a => .ok a
    | none => .error ⟨.malformed format, path⟩

example : DocumentFormat.extension? "a.b/c.json" = some "json" := by decide +kernel
example : DocumentFormat.extension? "a.b/c" = none := by decide +kernel
example : DocumentFormat.extension? ".json" = none := by decide +kernel
example : DocumentFormat.extension? "c." = some "" := by decide +kernel

end LeadTime
