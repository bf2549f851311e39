/-! What a run of the program leaves: text on its outputs, a file to write, and how it ends. -/
namespace LeadTime.CommandLine

/-- What went wrong, with the causes beneath it. -/
structure Failure where
  context : String
  causes : List String
  deriving DecidableEq, Repr

namespace Failure

/-- Lines after the first are moved in as far as what stands before the first. -/
def indented (first : String) (message : String) : String :=
  let later := String.ofList ('\n' :: List.replicate first.length ' ')
  first ++ later.intercalate (message.splitOn "\n")

def numbered (n : Nat) : String :=
  let digits := toString n
  String.ofList (List.replicate (5 - digits.length) ' ') ++ digits ++ ": "

def causeLines : List String → List String
  | [cause] => [indented "    " cause]
  | causes => causes.zipIdx.map fun (cause, n) => indented (numbered n) cause

def report (f : Failure) : String :=
  if f.causes.isEmpty then f.context
  else f.context ++ "\n\nCaused by:\n" ++ "\n".intercalate (causeLines f.causes)

example : Failure.report ⟨"a", ["b\nc"]⟩ = "a\n\nCaused by:\n    b\n    c" := by cbv
example : Failure.report ⟨"a", ["b\nc", "d"]⟩ = "a\n\nCaused by:\n    0: b\n       c\n    1: d" := by cbv

end Failure

inductive Outcome where
  | printed (text : String)
  | saved (path text : String)
  | failed (failure : Failure)
  | refused
  deriving DecidableEq, Repr

namespace Outcome

def exitCode : Outcome → Nat
  | .printed _ | .saved .. => 0
  | .failed _ => 1
  | .refused => 2

def output : Outcome → String
  | .printed text => text
  | _ => ""

/-- What is left when a file could not be written. -/
def unsaved (path : String) : Outcome := .failed ⟨"Failed to write output: " ++ path, []⟩

end Outcome
end LeadTime.CommandLine
