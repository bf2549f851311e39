import LeadTime.Document.Json.Writer
import LeadTime.Plan
import LeadTime.Request.Encode
import LeadTime.Settings.File
import LeadTime.Table

/-! A compiled query, or the stages of a pipeline, as text: a summary for people, JSON, or bare SQL. -/
namespace LeadTime

inductive Style where
  | underlined
  | dim
  | cyan
  | brightYellow
  | brightGreen
  deriving DecidableEq, Repr

namespace Style

def code : Style → String
  | .underlined => "4"
  | .dim => "2"
  | .cyan => "36"
  | .brightYellow => "38;5;11"
  | .brightGreen => "38;5;10"

def paint (style : Style) (color : Bool) (text : String) : String :=
  if color then "\x1b[" ++ style.code ++ "m" ++ text ++ "\x1b[0m" else text

end Style

/-- Seconds in the largest unit that divides them. -/
def secondsText (n : Nat) : String :=
  if n = 0 then "0s"
  else if n % 86400 = 0 then toString (n / 86400) ++ "d"
  else if n % 3600 = 0 then toString (n / 3600) ++ "h"
  else if n % 60 = 0 then toString (n / 60) ++ "min"
  else toString n ++ "s"

def DurationLimit.text (d : DurationLimit) : String :=
  match d.seconds? with
  | none => "out of range"
  | some n => secondsText n

/-- A bound value as a summary shows it: texts between single quotes, lists in brackets. -/
def ParamValue.shown : ParamValue → String
  | .bool b => toString b
  | .int n => toString n.toInt
  | .intList ns => bracketed (ns.map fun n => toString n.toInt)
  | .text s => quoted s
  | .textList ss => bracketed (ss.map quoted)
where
  quoted (s : String) : String := "'" ++ s ++ "'"
  bracketed (items : List String) : String := "[" ++ ", ".intercalate items ++ "]"

namespace StageMap

def encode (m : StageMap) : Datum := .map (m.entries.map fun entry => (toString entry.1, entry.2.encode))

def table (m : StageMap) : Table where
  header := ["#", "Stage", "Event", "Good Within", "Slow After"]
  rows := m.entries.map fun (index, s) =>
    [toString index, s.name, s.event.kind, s.lowerLimit.text, s.upperLimit.text]

/-- The stages alone: as a table for people, else as JSON. -/
def report (m : StageMap) (format : OutputFormat) (pretty : Bool) : String :=
  match format with
  | .summary => m.table.text ++ "\n"
  | .json | .sql => Json.write pretty m.encode ++ "\n"

end StageMap

namespace CompiledQuery

def encode (q : CompiledQuery) : Datum :=
  .map [("sql", .text q.sql), ("count_sql", .ofOption .text q.countSql),
    ("params", .ofKeyMap ParamValue.encode q.bindings), ("offset_stage_map", q.stages.encode)]

def bindingTable (q : CompiledQuery) : Table where
  header := ["Name", "Value"]
  rows := q.bindings.entries.map fun pair => [":" ++ pair.1, pair.2.shown]

def title (color : Bool) (emoji name : String) : String :=
  emoji ++ " " ++ Style.underlined.paint color name ++ "\n"

def overview (q : CompiledQuery) (color : Bool) : String :=
  let line (label value : String) : String := "  " ++ Style.dim.paint color label ++ " " ++ value ++ "\n"
  let count (n : Nat) : String := Style.brightYellow.paint color (toString n)
  title color "📊" "Overview" ++ line "Stages:" (count q.stages.size) ++
    line "Parameters:" (count q.bindings.size) ++
    line "Count query:"
      (if q.countSql.isSome then Style.brightGreen.paint color "yes" else Style.dim.paint color "no") ++ "\n"

def summary (q : CompiledQuery) (color : Bool) : String :=
  q.overview color ++ title color "🧭" "Stages" ++ q.stages.table.text ++ "\n\n" ++
    (if q.bindings.isEmpty then ""
      else title color "🔗" "Parameters" ++ q.bindingTable.text ++ "\n\n") ++
    title color "📝" "SQL" ++ Style.cyan.paint color q.sql ++ "\n\n" ++
    match q.countSql with
    | none => ""
    | some count => title color "🔢" "Count SQL" ++ Style.cyan.paint color count ++ "\n"

def statements (q : CompiledQuery) : String :=
  q.sql ++ ";\n" ++
    match q.countSql with
    | none => ""
    | some count => "\n-- count\n" ++ count ++ ";\n"

def report (q : CompiledQuery) (format : OutputFormat) (pretty color : Bool) : String :=
  match format with
  | .summary => q.summary color ++ "\n"
  | .json => Json.write pretty q.encode ++ "\n"
  | .sql => q.statements

end CompiledQuery
end LeadTime
