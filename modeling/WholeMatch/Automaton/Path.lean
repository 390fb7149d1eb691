import WholeMatch.Automaton.Basic

/-!
# Paths

What a run is, without any set of states: a path goes through existing states, along the edges of
silent states without consuming anything and along the first edge of a labeled state by consuming
its label. `Spells` is what an automaton should accept, by paths alone.
-/

namespace WholeMatch

namespace Automaton

/-- One step from an existing state without a label, along any of its edges. -/
def SilentStep (m : Automaton) (source target : Nat) : Prop :=
  ∃ s, m.state? source = some s ∧ s.label = none ∧ target ∈ s.edges

/-- One step from an existing state with the label `c`, along its first edge. -/
def ConsumingStep (m : Automaton) (source : Nat) (c : Char) (target : Nat) : Prop :=
  ∃ s, m.state? source = some s ∧ s.label = some c ∧ s.edges.head? = some target

/-- A path through existing states, and the word it consumes. -/
inductive Path (m : Automaton) : Nat → List Char → Nat → Prop where
  | refl {q : Nat} : (m.state? q).isSome → Path m q [] q
  | silent {q r t : Nat} {w : List Char} :
      m.SilentStep q r → Path m r w t → Path m q w t
  | consume {q r t : Nat} {c : Char} {w : List Char} :
      m.ConsumingStep q c r → Path m r w t → Path m q (c :: w) t

/-- A path from the start to the accept state consumes this word. -/
def Spells (m : Automaton) (w : List Char) : Prop := m.Path m.start w m.accept

namespace Path

variable {m : Automaton} {q r t : Nat} {v w : List Char}

theorem source_known (h : m.Path q w t) : (m.state? q).isSome := by
  cases h with
  | refl known => exact known
  | silent step _ => obtain ⟨s, known, -⟩ := step; simp [known]
  | consume step _ => obtain ⟨s, known, -⟩ := step; simp [known]

theorem target_known (h : m.Path q w t) : (m.state? t).isSome := by
  induction h with
  | refl known => exact known
  | silent _ _ ih => exact ih
  | consume _ _ ih => exact ih

theorem append (h : m.Path q v r) (h' : m.Path r w t) : m.Path q (v ++ w) t := by
  induction h with
  | refl _ => exact h'
  | silent step _ ih => exact .silent step (ih h')
  | consume step _ ih => exact .consume step (ih h')

end Path

end Automaton

end WholeMatch
