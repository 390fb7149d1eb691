import WholeMatch.Automaton.Combine
import WholeMatch.Expr.Basic

/-!
# The automaton of an expression

Built by recursion on the expression from the automata of its operands.
-/

namespace WholeMatch.Expr

/-- Combines the automata of the operands. -/
def automaton : Expr → Automaton
  | literal c => .literal c
  | concat a b => a.automaton.concat b.automaton
  | alternate a b => a.automaton.alternate b.automaton
  | star a => a.automaton.star

/-- The number of states: two for each node that is no concatenation. -/
def states : Expr → Nat
  | literal _ => 2
  | concat a b => a.states + b.states
  | alternate a b => a.states + b.states + 2
  | star a => a.states + 2

theorem size_automaton (e : Expr) : e.automaton.size = e.states := by
  induction e <;> simp_all [automaton, states]

end WholeMatch.Expr
