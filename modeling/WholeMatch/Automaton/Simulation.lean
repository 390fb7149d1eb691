import WholeMatch.Automaton.Closure

/-!
# Running an automaton

All runs are followed at once: the active states are those in which some run can be after the
characters consumed so far. A subject is accepted when the accept state is active at its end. Once
no state is active none ever will be, so the rest of the subject is not looked at.
-/

namespace WholeMatch

/-- A character consumed at a position, and how many states are active after it. -/
structure Consumed where
  char : Char
  position : Nat
  active : Nat
  deriving DecidableEq

/-- What running an automaton on a subject shows: each character looked at, and the verdict. -/
structure Run where
  consumed : List Consumed
  accepted : Bool
  deriving DecidableEq

namespace Automaton

/-- The states active before any character. -/
def initial (m : Automaton) : StateSet := m.close ∅ [m.start]

/-- The states active after consuming `c` in any of the `active` ones. -/
def advance (m : Automaton) (active : StateSet) (c : Char) : StateSet :=
  m.close ∅ (active.toList.filterMap fun id => (m.state? id).bind (·.target? c))

/-- The states active after all of `word`. -/
def activeAfter (m : Automaton) (word : List Char) : StateSet := word.foldl m.advance m.initial

/-- Runs on from the `active` states at a position, until they are none or the subject ends. -/
def runFrom (m : Automaton) (active : StateSet) (position : Nat) : List Char → Run
  | [] => ⟨[], active.contains m.accept⟩
  | c :: rest =>
    let next := m.advance active c
    let seen : Consumed := ⟨c, position, next.size⟩
    if next.isEmpty then ⟨[seen], false⟩
    else
      let run := m.runFrom next (position + 1) rest
      ⟨seen :: run.consumed, run.accepted⟩

/-- Runs on a whole subject. -/
def run (m : Automaton) (subject : List Char) : Run := m.runFrom m.initial 0 subject

/-- Tells whether some run consumes the whole subject and ends in the accept state. -/
def accepts (m : Automaton) (subject : String) : Bool := (m.run subject.toList).accepted

theorem accepted_runFrom_cons (m : Automaton) (active : StateSet) (position : Nat) (c : Char)
    (rest : List Char) :
    (m.runFrom active position (c :: rest)).accepted =
      (!(m.advance active c).isEmpty &&
        (m.runFrom (m.advance active c) (position + 1) rest).accepted) := by
  rw [runFrom]
  cases h : (m.advance active c).isEmpty <;> simp

end Automaton

end WholeMatch
