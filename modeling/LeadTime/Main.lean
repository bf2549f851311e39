import LeadTime.CommandLine

/-! The program: it looks at what is around it, runs, and writes what the run leaves. -/
namespace LeadTime.Program

open CommandLine

/-- Reads a file, telling one that is not there from one that cannot be read. -/
def content (path : String) : IO FileContent := do
  try
    return .text (← IO.FS.readFile path)
  catch
    | .noFileOrDirectory .. => return .missing
    | _ => return .unreadable

def environment (names : List String) : IO (String → Option String) := do
  let pairs ← names.filterMapM fun name => do return (← IO.getEnv name).map (name, ·)
  return fun name => (pairs.find? (·.1 = name)).map Prod.snd

/-- Sees the files that the arguments name, and no other. -/
def surroundings (arguments : List String) : IO Surroundings := do
  let found ← environment ["LEADLENS_CONFIG", "CLICOLOR", "CLICOLOR_FORCE", "NO_COLOR", "TERM"]
  let terminal ← (← IO.getStdout).isTty
  let unseen : Surroundings := ⟨fun _ => .missing, found, terminal⟩
  match Invocation.ofArguments unseen.config? arguments with
  | .error _ => return unseen
  | .ok i =>
    let seen ← i.sources.mapM fun path => do return (path, ← content path)
    return { unseen with files := fun path => ((seen.find? (·.1 = path)).map Prod.snd).getD .missing }

def finish (outcome : Outcome) : IO Unit :=
  match outcome with
  | .printed text => IO.print text
  | .saved path text => IO.FS.writeFile path text
  | .failed failure => IO.eprintln ("Error: " ++ failure.report)
  | .refused => IO.eprint (CommandLine.help none)

end LeadTime.Program

open LeadTime in
def main (arguments : List String) : IO UInt32 := do
  let outcome := CommandLine.run (← Program.surroundings arguments) arguments
  let outcome ←
    try
      Program.finish outcome
      pure outcome
    catch e =>
      match outcome with
      | .saved path _ =>
        let outcome := CommandLine.Outcome.unsaved path
        Program.finish outcome
        pure outcome
      | _ => throw e
  return outcome.exitCode.toUInt32
