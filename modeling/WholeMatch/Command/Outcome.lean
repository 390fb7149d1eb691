import WholeMatch.Automaton.Dump
import WholeMatch.Command.Arguments
import WholeMatch.Pattern

/-!
# What the command does

The stages are shown as they come: the post-order if asked for, then the states if asked for, then a
verdict for each subject. A stage that fails ends the run, and what was shown before it stays.
-/

namespace WholeMatch.Command

/-- What a run leaves behind. -/
structure Outcome where
  exitCode : Nat
  stdout : String
  stderr : String
  deriving DecidableEq

/-- A run that ended in an error after showing something. -/
def Outcome.failure (shown : String) (error : Error) : Outcome :=
  ⟨1, shown, "error: " ++ error.message ++ "\n"⟩

/-- The line with the verdict on a subject. -/
def verdictLine (automaton : Automaton) (subject : String) : String :=
  String.ofList (Text.quotedText subject.toList) ++
    (if automaton.accepts subject then ": match\n" else ": no match\n")

/-- Does what is asked for. -/
def Options.run (o : Options) : Outcome :=
  match (Postorder.ofPattern o.pattern).result with
  | .error e => .failure "" e
  | .ok postorder =>
    let shown := if o.showPostorder then postorder.text ++ "\n" else ""
    match (postorder.assemble o.limit).result with
    | .error e => .failure shown e
    | .ok automaton =>
      let states := if o.showStates then automaton.dump else ""
      ⟨0, shown ++ states ++ String.join (o.subjects.map (verdictLine automaton)), ""⟩

/-- Reads the arguments and does what they ask for. -/
def run (arguments : List String) : Except UsageError Outcome :=
  (Options.ofArguments arguments).map Options.run

end WholeMatch.Command
