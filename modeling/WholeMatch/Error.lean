import WholeMatch.Token

/-!
# Errors

What can go wrong between a pattern and its automaton, as causes; the wording is in
`Error.message` alone.
-/

namespace WholeMatch

/-- Why a pattern has no automaton. -/
inductive Error where
  /-- A parenthesis without its partner, at this character of the pattern. -/
  | unbalancedParen (position : Nat)
  /-- An operator with too few operands before it, at this token of the post-order. -/
  | missingOperand (op : Operator) (position : Nat)
  /-- The whole post-order leaves this many expressions and not one. -/
  | dangling (count : Nat)
  /-- The automaton outgrows the limit on its states. -/
  | tooComplex (limit : Nat)
  /-- A state that already has all the edges its kind may have is given one more. -/
  | stateFull (state edges : Nat)
  deriving DecidableEq

/-- The wording of an error. -/
def Error.message : Error → String
  | unbalancedParen position => "unbalanced parenthesis at position " ++ toString position
  | missingOperand op position =>
    "malformed expression: operator `" ++ op.symbol.toString ++ "` at position " ++
      toString position ++ " is missing an operand"
  | dangling count =>
    "malformed expression: expected a single fragment after compilation, found " ++
      toString count
  | tooComplex limit =>
    "expression is too complex (more than " ++ toString limit ++ " states)"
  | stateFull state edges =>
    "state " ++ toString state ++ " already has " ++ toString edges ++ " edge(s)"

end WholeMatch
