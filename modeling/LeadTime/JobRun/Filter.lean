import LeadTime.Decimal
import LeadTime.Stage
import LeadTime.Text.Quoted

/-! The filter of job runs that a CI/CD stage carries: nine known keys, read in the order of the raw filter,
where the first value of a wrong shape is the fault. -/
namespace LeadTime

inductive Shape where
  | sequence
  | text
  | pattern
  deriving DecidableEq, Repr

def Shape.description : Shape → String
  | .sequence => "a sequence"
  | .text => "a string"
  | .pattern => "struct PartialMatch"

inductive FilterFault where
  | mistyped (found : Datum) (wanted : Shape)
  | overlong (length : Nat)

namespace FilterFault

def describe : Datum → String
  | .null => "null"
  | .bool true => "boolean `true`"
  | .bool false => "boolean `false`"
  | .int n => "integer `" ++ toString n ++ "`"
  | .float bits => "floating point `" ++ Decimal.text bits ++ "`"
  | .text s => "string " ++ Text.quote s
  | .list _ => "sequence"
  | .map _ => "map"

def message : FilterFault → String
  | .mistyped found wanted => "invalid type: " ++ describe found ++ ", expected " ++ wanted.description
  | .overlong n => "invalid length " ++ toString n ++ ", expected fewer elements in array"

end FilterFault

structure TextPattern where
  begins : Option String
  contains : Option String
  deriving DecidableEq, Repr

structure RunFilter where
  userIds : List String
  excludedUserIds : List String
  statuses : List String
  excludedStatuses : List String
  services : List String
  environments : List String
  deploymentTypes : List String
  branches : List String
  repository : Option TextPattern
  deriving DecidableEq, Repr

namespace RunFilter

def unrestricted : RunFilter := ⟨[], [], [], [], [], [], [], [], none⟩

def text : Datum → Except FilterFault String
  | .text s => .ok s
  | d => .error (.mistyped d .text)

def texts : Datum → Except FilterFault (List String)
  | .list items => items.mapM text
  | d => .error (.mistyped d .sequence)

def optionalText : Datum → Except FilterFault (Option String)
  | .null => .ok none
  | d => (text d).map some

/-- Takes one named part of a pattern; other names are skipped. -/
def patternPart (p : TextPattern) (part : String × Datum) : Except FilterFault TextPattern :=
  match part.1 with
  | "begins" => (optionalText part.2).map fun s => { p with begins := s }
  | "contains" => (optionalText part.2).map fun s => { p with contains := s }
  | _ => .ok p

/-- A pattern with named parts, or with its parts in order. -/
def pattern : Datum → Except FilterFault TextPattern
  | .map parts => parts.foldlM patternPart ⟨none, none⟩
  | .list items => do
    let parts ← (items.take 2).mapM optionalText
    if items.length > 2 then throw (.overlong items.length)
    return ⟨(parts[0]?).join, (parts[1]?).join⟩
  | d => .error (.mistyped d .pattern)

def optionalPattern : Datum → Except FilterFault (Option TextPattern)
  | .null => .ok none
  | d => (pattern d).map some

/-- Takes one key of a raw filter; keys that are not known are skipped. -/
def take (f : RunFilter) (pair : String × Datum) : Except FilterFault RunFilter :=
  match pair.1 with
  | "cicd_user_ids" => (texts pair.2).map fun v => { f with userIds := v }
  | "exclude_cicd_user_ids" => (texts pair.2).map fun v => { f with excludedUserIds := v }
  | "job_statuses" => (texts pair.2).map fun v => { f with statuses := v }
  | "exclude_job_statuses" => (texts pair.2).map fun v => { f with excludedStatuses := v }
  | "services" => (texts pair.2).map fun v => { f with services := v }
  | "environments" => (texts pair.2).map fun v => { f with environments := v }
  | "deployment_types" => (texts pair.2).map fun v => { f with deploymentTypes := v }
  | "branches" => (texts pair.2).map fun v => { f with branches := v }
  | "repository" => (optionalPattern pair.2).map fun v => { f with repository := v }
  | _ => .ok f

def ofRaw : Option RawFilter → Except FilterFault RunFilter
  | none => .ok unrestricted
  | some raw => raw.entries.foldlM take unrestricted

end RunFilter

end LeadTime
