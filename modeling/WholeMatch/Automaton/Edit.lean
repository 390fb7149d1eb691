import WholeMatch.Automaton.Basic

/-!
# Edits

The ways in which an automaton can be changed from outside, as data, so that one can speak of any
sequence of them. A refused edit leaves the automaton as it is.

Done step by step, an edit answers the name of the state it adds and might be refused halfway
(`perform`). It never is: every edit is done as a whole or not at all (`perform_eq`).
-/

namespace WholeMatch

/-- One change of an automaton. -/
inductive Edit where
  /-- A new silent state. -/
  | addSilent
  /-- A new state that consumes `c` and leads to `target`. -/
  | addLabeled (c : Char) (target : Nat)
  /-- A new state with the label and the edges it has. -/
  | addState (s : State)
  /-- A new edge. -/
  | connect (source target : Nat)
  /-- Another start and accept state. -/
  | setFragment (f : Fragment)
  deriving DecidableEq

namespace Edit

/-- Tells whether the edit adds a state. -/
def isAddition : Edit → Bool
  | addSilent => true
  | addLabeled .. => true
  | addState _ => true
  | connect .. => false
  | setFragment _ => false

end Edit

namespace Automaton

/-- Makes one change, or refuses it. -/
def edit (m : Automaton) : Edit → Except Error Automaton
  | .addSilent => .ok m.addSilent
  | .addLabeled c target => .ok (m.addLabeled c target)
  | .addState s => .ok (m.addState s)
  | .connect source target => m.connect source target
  | .setFragment f => .ok (m.setFragment f)

/-- Makes one change; a refused one changes nothing. -/
def edited (m : Automaton) (e : Edit) : Automaton := (m.edit e).toOption.getD m

/-- Makes the changes one after the other. -/
def editedAll (m : Automaton) (edits : List Edit) : Automaton := edits.foldl edited m

/-- Makes one change step by step: the name of the new state, if there is one, or what was refused,
and the automaton as it is then. A labeled state is added before its edge. -/
def perform (m : Automaton) : Edit → Except Error (Option Nat) × Automaton
  | .addSilent => (.ok (some m.size), m.addSilent)
  | .addLabeled c target =>
    let grown := m.addState (State.labeled c)
    match grown.connect m.size target with
    | .ok linked => (.ok (some m.size), linked)
    | .error err => (.error err, grown)
  | .addState s => (.ok (some m.size), m.addState s)
  | .connect source target =>
    match m.connect source target with
    | .ok linked => (.ok none, linked)
    | .error err => (.error err, m)
  | .setFragment f => (.ok none, m.setFragment f)

/-- What is done step by step is the whole change or nothing. -/
theorem perform_eq (m : Automaton) (e : Edit) :
    m.perform e =
      match m.edit e with
      | .ok changed => (.ok (if e.isAddition then some m.size else none), changed)
      | .error err => (.error err, m) := by
  cases e with
  | addSilent => rfl
  | addLabeled c target =>
    simp only [perform, connect_addState_labeled]
    rfl
  | addState s => rfl
  | connect source target =>
    rw [perform, edit]
    cases m.connect source target <;> rfl
  | setFragment f => rfl

theorem edited_eq_perform (m : Automaton) (e : Edit) : m.edited e = (m.perform e).2 := by
  rw [edited, perform_eq]
  cases m.edit e <;> rfl

theorem edit_eq_error_iff {m : Automaton} {e : Edit} {err : Error} :
    m.edit e = .error err ↔
      ∃ source target s, e = .connect source target ∧ m.state? source = some s ∧
        s.capacity ≤ s.edges.length ∧ err = .stateFull source s.edges.length := by
  cases e <;> simp [edit, connect_eq_error_iff]

end Automaton

end WholeMatch
