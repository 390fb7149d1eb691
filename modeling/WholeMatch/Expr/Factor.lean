import WholeMatch.Expr.Basic

/-!
# Factors

An expression as a sequence of factors, in which it no longer shows how concatenations were
nested. Main statement: the sequence of a concatenation is that of its operands, one after the
other, so regrouping changes nothing (`Expr.factors_assoc`).
-/

namespace WholeMatch

/-- A piece of an expression that is no concatenation; its operands are sequences of factors. -/
inductive Factor where
  | literal (c : Char)
  | alternate (a b : List Factor)
  | star (a : List Factor)

namespace Expr

/-- The factors of an expression from left to right. -/
def factors : Expr → List Factor
  | literal c => [.literal c]
  | concat a b => a.factors ++ b.factors
  | alternate a b => [.alternate a.factors b.factors]
  | star a => [.star a.factors]

theorem factors_assoc (a b c : Expr) :
    (concat (concat a b) c).factors = (concat a (concat b c)).factors := by
  simp [factors]

theorem factors_ne_nil (e : Expr) : e.factors ≠ [] := by
  induction e <;> simp_all [factors]

end Expr

end WholeMatch
