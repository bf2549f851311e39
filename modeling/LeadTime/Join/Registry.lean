import LeadTime.Binding
import LeadTime.Join.Line

/-! The joins of one query. Each is held once, after all that it reads from; the anchor is never held,
since the chain starts at it. The steps of a compilation add to a draft: they ask for joins and bind values. -/
namespace LeadTime

open Sql

structure JoinEntry where
  join : Join
  lines : List JoinLine
  /-- Conditions added to the last line. -/
  conditions : List Expr
  deriving DecidableEq, Repr

def JoinEntry.tokens (e : JoinEntry) : List Token :=
  separated "\n" (e.lines.map JoinLine.tokens) ++
    e.conditions.flatMap fun c => .fixed " AND " :: c.tokens

def JoinEntry.text (e : JoinEntry) : String := Sql.text e.tokens

structure Registry where
  context : JoinContext
  entries : List JoinEntry

inductive JoinRequest where
  /-- A join that the registry writes itself. -/
  | held (join : Join)
  /-- A join with its line, used where the join is not yet held. -/
  | supplied (join : Join) (line : JoinLine)
  | condition (join : Join) (condition : Expr)
  deriving DecidableEq, Repr

namespace Registry

def empty (context : JoinContext) : Registry := ⟨context, []⟩

def isAnchor (r : Registry) (j : Join) : Bool := j = r.context.anchor.join

def holds (r : Registry) (j : Join) : Bool := r.entries.any (·.join = j)

/-- Whether rows of the join can be read: it is the anchor or is held. -/
def isJoined (r : Registry) (j : Join) : Bool := r.isAnchor j || r.holds j

def tableAlias? (r : Registry) (j : Join) : Option String := if r.isJoined j then some j.tableAlias else none

/-- The name that whoever asks for a join is given: the one under which it can be read already, or will be. -/
def answer (r : Registry) (j : Join) : String := (r.tableAlias? j).getD j.tableAlias

def push (r : Registry) (j : Join) (lines : List JoinLine) : Registry :=
  { r with entries := r.entries ++ [⟨j, lines, []⟩] }

def hold (r : Registry) (j : Join) (lines : List JoinLine) : Registry :=
  if r.isJoined j then r else r.push j lines

/-- What has to be held before the join: what it reads from, as far as the anchor. -/
def needed (context : JoinContext) (j : Join) : List Join :=
  (j.dependencies.reverse.takeWhile (· ≠ context.anchor.join)).reverse

def holdAll (r : Registry) (joins : List Join) : Registry :=
  joins.foldl (fun r j => r.hold j (r.context.lines j)) r

def require (r : Registry) (j : Join) : Registry :=
  if r.isJoined j then r else (r.holdAll (needed r.context j)).hold j (r.context.lines j)

def requireLine (r : Registry) (j : Join) (line : JoinLine) : Registry :=
  if r.isJoined j then r else (r.holdAll (needed r.context j)).hold j [line]

def addCondition (r : Registry) (j : Join) (condition : Expr) : Registry :=
  { r with entries := r.entries.map fun e =>
      if e.join = j then { e with conditions := e.conditions ++ [condition] } else e }

def request (r : Registry) : JoinRequest → Registry
  | .held j => r.require j
  | .supplied j line => r.requireLine j line
  | .condition j c => r.addCondition j c

def requestAll (r : Registry) (requests : List JoinRequest) : Registry := requests.foldl request r

def ordered (r : Registry) : List JoinEntry :=
  r.entries.mergeSort fun a b => a.join.ranksBefore b.join

/-- The chain after its anchor, one line a join. -/
def tokens (r : Registry) : List Token := separated "\n" (r.ordered.map JoinEntry.tokens)

def text (r : Registry) : String := Sql.text r.tokens

end Registry

/-- What one step needs: joins, and values bound to its placeholders. -/
structure Demand where
  requests : List JoinRequest
  bindings : List (String × ParamValue)
  deriving DecidableEq

namespace Demand

def none : Demand := ⟨[], []⟩

def append (a b : Demand) : Demand := ⟨a.requests ++ b.requests, a.bindings ++ b.bindings⟩

instance : Append Demand := ⟨append⟩

end Demand

structure Draft where
  joins : Registry
  bindings : Bindings

namespace Draft

def empty (context : JoinContext) : Draft := ⟨.empty context, .empty⟩

def meet (d : Draft) (demand : Demand) : Draft :=
  ⟨d.joins.requestAll demand.requests, d.bindings.insertAll demand.bindings⟩

end Draft
end LeadTime
