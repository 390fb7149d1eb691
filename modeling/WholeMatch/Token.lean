/-!
# Operators and tokens

A pattern is made of literal characters and three operators. A `Token` is either of them, and
every character but the three operator symbols stands for itself; parentheses have no token of
their own, they only group. Main statement: a token read from a character is written as that
character again (`Token.symbol_ofChar`).
-/

namespace WholeMatch

/-- The operators, each with its operands written around or before it. -/
inductive Operator where
  /-- `.`, the words of one operand followed by the words of another. -/
  | concat
  /-- `|`, the words of either operand. -/
  | alternate
  /-- `*`, any number of words of the operand. -/
  | star
  deriving DecidableEq

namespace Operator

/-- The character an operator is written as. -/
def symbol : Operator → Char
  | concat => '.'
  | alternate => '|'
  | star => '*'

/-- The operator a character stands for. -/
def ofSymbol? : Char → Option Operator
  | '.' => some concat
  | '|' => some alternate
  | '*' => some star
  | _ => none

/-- How many operands an operator takes. -/
def arity : Operator → Nat
  | concat => 2
  | alternate => 2
  | star => 1

/-- How tightly an operator binds: of two neighbours, the one with more is applied first. -/
def precedence : Operator → Nat
  | alternate => 1
  | concat => 2
  | star => 3

theorem ofSymbol?_symbol (op : Operator) : ofSymbol? op.symbol = some op := by
  cases op <;> rfl

theorem ofSymbol?_eq_some_iff {c : Char} {op : Operator} :
    ofSymbol? c = some op ↔ c = op.symbol := by
  refine ⟨fun h => ?_, fun h => h ▸ ofSymbol?_symbol op⟩
  unfold ofSymbol? at h
  split at h <;> simp_all [symbol] <;> subst h <;> rfl

theorem symbol_injective : Function.Injective symbol := by
  intro op op' same
  have read := ofSymbol?_symbol op
  rw [same, ofSymbol?_symbol op', Option.some.injEq] at read
  exact read.symm

end Operator

/-- What an expression is written with once grouping has been settled. -/
inductive Token where
  /-- Matches exactly this character, which may also be the symbol of an operator. -/
  | literal (c : Char)
  /-- Combines the expressions before it. -/
  | operator (op : Operator)
  deriving DecidableEq

namespace Token

/-- Reads a character: an operator by its symbol, anything else, parentheses included, as itself. -/
def ofChar (c : Char) : Token :=
  match Operator.ofSymbol? c with
  | some op => operator op
  | none => literal c

/-- The character a token is written as. -/
def symbol : Token → Char
  | literal c => c
  | operator op => op.symbol

/-- Tells operators from literals. -/
def isOperator : Token → Bool
  | literal _ => false
  | operator _ => true

/-- How many expressions before it a token combines into one. -/
def arity : Token → Nat
  | literal _ => 0
  | operator op => op.arity

@[simp] theorem symbol_ofChar (c : Char) : (ofChar c).symbol = c := by
  unfold ofChar
  split
  next op h => exact (Operator.ofSymbol?_eq_some_iff.1 h).symm
  next => rfl

@[simp] theorem ofChar_symbol_operator (op : Operator) :
    ofChar (operator op).symbol = operator op := by
  cases op <;> rfl

/-- A literal survives being written and read exactly when its character is no operator symbol. -/
theorem ofChar_symbol_literal_iff {c : Char} :
    ofChar (literal c).symbol = literal c ↔ Operator.ofSymbol? c = none := by
  simp only [ofChar, symbol]
  split <;> simp_all

end Token

end WholeMatch
