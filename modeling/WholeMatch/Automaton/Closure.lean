import WholeMatch.Automaton.Basic
import Std.Data.ExtTreeSet

/-!
# Closure under silent edges

`close seen todo` adds to `seen` every state of `todo` and all that silent edges reach from it.
States already in `seen` are not expanded again, which is why the cycles of an automaton do no
harm: each state that is expanded leaves the unvisited ones for good, and takes no more work with
it than its weight. Names without a state are passed over.
-/

namespace WholeMatch

/-- A set of states, in ascending order. -/
abbrev StateSet := Std.ExtTreeSet Nat

namespace Automaton

/-- What expanding a state may cost: one visit and one more for each silent edge. -/
def weight (m : Automaton) (id : Nat) : Nat :=
  (m.state? id).elim 0 fun s => s.silentEdges.length + 1

/-- What expanding the states below `n` and outside `seen` may cost. -/
def weightBelow (m : Automaton) (seen : StateSet) : Nat → Nat
  | 0 => 0
  | n + 1 => m.weightBelow seen n + if n ∈ seen then 0 else m.weight n

/-- What expanding the states outside `seen` may cost. -/
def unvisitedWeight (m : Automaton) (seen : StateSet) : Nat := m.weightBelow seen m.size

theorem weightBelow_insert (m : Automaton) {seen : StateSet} {id : Nat} (fresh : id ∉ seen)
    (n : Nat) :
    m.weightBelow (seen.insert id) n + (if id < n then m.weight id else 0) =
      m.weightBelow seen n := by
  induction n with
  | zero => rfl
  | succ n ih =>
    rw [weightBelow, weightBelow, ← ih]
    by_cases same : id = n
    · subst same
      simp [fresh]
    · have lt_iff : id < n + 1 ↔ id < n := by omega
      simp only [Std.ExtTreeSet.mem_insert, Nat.compare_eq_eq, same, false_or, lt_iff]
      omega

theorem unvisitedWeight_insert {m : Automaton} {seen : StateSet} {id : Nat} {s : State}
    (known : m.state? id = some s) (fresh : id ∉ seen) :
    m.unvisitedWeight (seen.insert id) + (s.silentEdges.length + 1) =
      m.unvisitedWeight seen := by
  have h := m.weightBelow_insert fresh m.size
  simpa [unvisitedWeight, weight, known, lt_size_of_state? known] using h

/-- Adds the states of `todo` to `seen`, with all that silent edges reach from them by way of
states outside `seen`. -/
def close (m : Automaton) (seen : StateSet) : List Nat → StateSet
  | [] => seen
  | id :: todo =>
    match _known : m.state? id with
    | none => m.close seen todo
    | some s =>
      if _visited : id ∈ seen then m.close seen todo
      else m.close (seen.insert id) (s.silentEdges ++ todo)
termination_by todo => m.unvisitedWeight seen + todo.length
decreasing_by
  · simp
  · simp
  · have := unvisitedWeight_insert _known _visited
    simp only [List.length_append, List.length_cons]
    omega

section Equations

variable {m : Automaton} {seen : StateSet} {id : Nat} {s : State} {todo : List Nat}

@[simp] theorem close_nil (m : Automaton) (seen : StateSet) : m.close seen [] = seen := by
  rw [close]

theorem close_cons_of_unknown (unknown : m.state? id = none) :
    m.close seen (id :: todo) = m.close seen todo := by
  rw [close]
  split <;> simp_all

theorem close_cons_of_mem (visited : id ∈ seen) :
    m.close seen (id :: todo) = m.close seen todo := by
  rw [close]
  split <;> simp_all

theorem close_cons_of_fresh (known : m.state? id = some s) (fresh : id ∉ seen) :
    m.close seen (id :: todo) = m.close (seen.insert id) (s.silentEdges ++ todo) := by
  rw [close]
  split <;> simp_all

end Equations

/-- Closing one list of states after another is closing them together. -/
theorem close_append (m : Automaton) (seen : StateSet) (todo later : List Nat) :
    m.close seen (todo ++ later) = m.close (m.close seen todo) later := by
  fun_induction m.close seen todo with
  | case1 => rfl
  | case2 seen id todo unknown ih =>
    rw [List.cons_append, close_cons_of_unknown unknown, ih]
  | case3 seen id todo s known visited ih =>
    rw [List.cons_append, close_cons_of_mem visited, ih]
  | case4 seen id todo s known fresh ih =>
    rw [List.cons_append, close_cons_of_fresh known fresh, ← List.append_assoc, ih]

end Automaton

end WholeMatch
