import WholeMatch.Command.Outcome

/-!
# The command

Prints what a run leaves behind. Arguments that make no sense end it with exit code 2.
-/

/-- Runs the command on the arguments of the process. -/
def main (arguments : List String) : IO UInt32 := do
  match WholeMatch.Command.run arguments with
  | .ok outcome =>
    IO.print outcome.stdout
    IO.eprint outcome.stderr
    return outcome.exitCode.toUInt32
  | .error e =>
    IO.eprintln ("error: " ++ e.message ++
      "\n\nusage: [-p] [-d] [--size-limit STATES] PATTERN [SUBJECT]...")
    return 2
