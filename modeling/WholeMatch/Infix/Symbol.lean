import WholeMatch.Token

/-!
# Symbols of a pattern

In a pattern, unlike in post-order text, parentheses are symbols of their own: they group.
-/

namespace WholeMatch.Infix

/-- What a character of a pattern is. -/
inductive Symbol where
  /-- `(` -/
  | opening
  /-- `)` -/
  | closing
  | literal (c : Char)
  | operator (op : Operator)
  deriving DecidableEq

/-- Classifies a character. -/
def Symbol.ofChar (c : Char) : Symbol :=
  if c = '(' then opening
  else if c = ')' then closing
  else
    match Operator.ofSymbol? c with
    | some op => operator op
    | none => literal c

/-- A character that stands for itself in a pattern. -/
def IsLiteral (c : Char) : Prop :=
  c ≠ '(' ∧ c ≠ ')' ∧ c ≠ '.' ∧ c ≠ '|' ∧ c ≠ '*'

instance : DecidablePred IsLiteral := fun c => by unfold IsLiteral; infer_instance

theorem not_isLiteral_symbol (op : Operator) : ¬ IsLiteral op.symbol := by
  cases op <;> decide

namespace Symbol

@[simp] theorem ofChar_opening : ofChar '(' = opening := rfl

@[simp] theorem ofChar_closing : ofChar ')' = closing := rfl

@[simp] theorem ofChar_operator (op : Operator) : ofChar op.symbol = operator op := by
  cases op <;> rfl

theorem ofChar_eq_opening_iff {c : Char} : ofChar c = opening ↔ c = '(' := by
  unfold ofChar
  split
  next h => simp [h]
  next h => split <;> (try split) <;> simp_all

theorem ofChar_eq_closing_iff {c : Char} : ofChar c = closing ↔ c = ')' := by
  unfold ofChar
  split
  next h => simp [h]
  next h => split <;> (try split) <;> simp_all

theorem ofChar_eq_operator_iff {c : Char} {op : Operator} :
    ofChar c = operator op ↔ c = op.symbol := by
  refine ⟨fun h => ?_, fun h => h ▸ ofChar_operator op⟩
  unfold ofChar at h
  split at h
  · cases h
  · split at h
    · cases h
    · split at h
      next op' hop => cases h; exact Operator.ofSymbol?_eq_some_iff.1 hop
      next => cases h

theorem ofChar_eq_literal_iff {c l : Char} : ofChar c = literal l ↔ IsLiteral c ∧ c = l := by
  by_cases h₁ : c = '('
  · subst h₁; simp [IsLiteral]
  by_cases h₂ : c = ')'
  · subst h₂; simp [IsLiteral]
  have hop (op : Operator) : Operator.ofSymbol? c = some op → ¬ IsLiteral c := by
    rw [Operator.ofSymbol?_eq_some_iff]
    rintro rfl
    cases op <;> simp [IsLiteral, Operator.symbol]
  simp only [ofChar, h₁, h₂, if_false]
  split
  next op h => simp [hop op h]
  next h =>
    have : IsLiteral c := by
      refine ⟨h₁, h₂, ?_, ?_, ?_⟩ <;> rintro rfl <;> simp [Operator.ofSymbol?] at h
    simp [this]

end Symbol

end WholeMatch.Infix
