import WholeMatch.Automaton.Basic

/-!
# Combining whole automata

The operators on finished automata rather than on fragments of one: the states of the second
operand follow those of the first, with their names moved, and new states come last.
-/

namespace WholeMatch

/-- The same state where all names are moved up. -/
def State.shift (offset : Nat) (s : State) : State := { s with edges := s.edges.map (offset + ·) }

namespace Automaton

/-- The states of `a`, then those of `b` with their names moved past them; runs stay in `a`. -/
def beside (a b : Automaton) : Automaton :=
  { a with states := a.states ++ b.states.map (State.shift a.size) }

/-- Accepts one character. -/
def literal (c : Char) : Automaton :=
  { states := #[.silent, (State.labeled c).link 0], start := 1, accept := 0 }

/-- Runs through `a` and then through `b`. -/
def concat (a b : Automaton) : Automaton :=
  ((a.beside b).link a.accept (a.size + b.start)).setFragment ⟨a.start, a.size + b.accept⟩

/-- Runs through `a` or through `b`. -/
def alternate (a b : Automaton) : Automaton :=
  let accept := a.size + b.size
  let both := ((a.beside b).link a.accept accept).link (a.size + b.accept) accept
  (both.addSilent.addState { edges := [a.start, a.size + b.start] }).setFragment
    ⟨accept + 1, accept⟩

/-- Runs through `a` any number of times. -/
def star (a : Automaton) : Automaton :=
  let again := (a.link a.accept a.start).link a.accept a.size
  (again.addSilent.addState { edges := [a.start, a.size] }).setFragment ⟨a.size + 1, a.size⟩

/-! ### The view of each operation -/

@[simp] theorem size_beside (a b : Automaton) : (a.beside b).size = a.size + b.size := by
  simp [size, beside]

/-- The first operand keeps its names, the second has them moved. -/
theorem state?_beside (a b : Automaton) (id : Nat) :
    (a.beside b).state? id =
      if id < a.size then a.state? id else (b.state? (id - a.size)).map (State.shift a.size) := by
  simp only [state?, beside, size, Array.getElem?_append, Array.getElem?_map]
  rfl

@[simp] theorem size_literal (c : Char) : (literal c).size = 2 := rfl

@[simp] theorem size_concat (a b : Automaton) : (a.concat b).size = a.size + b.size := by
  simp [concat]

@[simp] theorem size_alternate (a b : Automaton) :
    (a.alternate b).size = a.size + b.size + 2 := by
  simp [alternate, addSilent]

@[simp] theorem size_star (a : Automaton) : a.star.size = a.size + 2 := by
  simp [star, addSilent]

end Automaton

end WholeMatch
