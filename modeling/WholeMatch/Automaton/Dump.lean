import WholeMatch.Automaton.Basic
import WholeMatch.Text.Quoted

/-!
# Dumps

The text of an automaton: a line for its ends and one for each state. A silent state is written
`ε`, a labeled one as its quoted label; edges follow an arrow, and a silent state without edges has
no arrow.
-/

namespace WholeMatch

open Text

/-- Edges between brackets, parted by commas. -/
def bracketed (edges : List Nat) : List Char :=
  '[' :: [',', ' '].intercalate (edges.map decimal) ++ [']']

/-- A state without its name. -/
def State.dump (s : State) : List Char :=
  let arrow := [' ', '-', '>', ' ']
  match s.label, s.edges with
  | some c, edges => quotedChar c ++ arrow ++ bracketed edges
  | none, [] => ['ε']
  | none, edges => 'ε' :: arrow ++ bracketed edges

namespace Automaton

/-- The line that gives the ends. -/
def endsLine (m : Automaton) : List Char :=
  "start: ".toList ++ decimal m.start ++ ", accept: ".toList ++ decimal m.accept ++ ['\n']

/-- The line of the state with this name. -/
def stateLine (s : State) (id : Nat) : List Char :=
  ' ' :: ' ' :: decimal id ++ ':' :: ' ' :: s.dump ++ ['\n']

/-- The lines of all states, in the order of their names. -/
def stateLines (m : Automaton) : List Char :=
  (m.states.toList.zipIdx.map fun (s, id) => stateLine s id).flatten

/-- The whole text. -/
def dump (m : Automaton) : String := String.ofList (m.endsLine ++ m.stateLines)

/-- A label is quoted, so the letter that marks silent states is no danger. -/
example : (Automaton.mk #[.silent, ⟨some 'ε', [0]⟩] 1 0).dump =
    "start: 1, accept: 0\n  0: ε\n  1: 'ε' -> [0]\n" := by
  decide +kernel

end Automaton

end WholeMatch
