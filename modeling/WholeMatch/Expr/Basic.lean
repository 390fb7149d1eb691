import WholeMatch.Postorder

/-!
# Expressions

The trees that patterns and post-orders stand for.
-/

namespace WholeMatch

/-- An expression. -/
inductive Expr where
  | literal (c : Char)
  | concat (a b : Expr)
  | alternate (a b : Expr)
  | star (a : Expr)
  deriving DecidableEq

namespace Expr

/-- The tokens of the operands from left to right, then the operator. -/
def tokens : Expr → List Token
  | literal c => [.literal c]
  | concat a b => a.tokens ++ b.tokens ++ [.operator .concat]
  | alternate a b => a.tokens ++ b.tokens ++ [.operator .alternate]
  | star a => a.tokens ++ [.operator .star]

/-- An expression in post-order. -/
def postorder (e : Expr) : Postorder := ⟨e.tokens⟩

end Expr

end WholeMatch
