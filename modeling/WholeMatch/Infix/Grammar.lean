import WholeMatch.Expr.Basic
import WholeMatch.Infix.Symbol

/-!
# The grammar of patterns

Which expressions a pattern can be read as, independent of how it is read: alternation binds
loosest, then concatenation, then the star; chains of one operator associate to the right, and
parentheses may stand around anything.
-/

namespace WholeMatch.Infix

/-- The forms of patterns, from the loosest to the tightest. -/
inductive Form where
  /-- Chains joined by `|`. -/
  | choice
  /-- Repetitions joined by `.`. -/
  | chain
  /-- An atom with any number of stars. -/
  | repetition
  /-- A literal or a group. -/
  | atom
  deriving DecidableEq

/-- `Derives form s e`: as a pattern of this form, the characters `s` stand for `e`. -/
inductive Derives : Form → List Char → Expr → Prop where
  | chain {s : List Char} {e : Expr} : Derives .chain s e → Derives .choice s e
  | alternate {s t : List Char} {a b : Expr} :
      Derives .chain s a → Derives .choice t b → Derives .choice (s ++ '|' :: t) (.alternate a b)
  | repetition {s : List Char} {e : Expr} : Derives .repetition s e → Derives .chain s e
  | concat {s t : List Char} {a b : Expr} :
      Derives .repetition s a → Derives .chain t b → Derives .chain (s ++ '.' :: t) (.concat a b)
  | atom {s : List Char} {e : Expr} : Derives .atom s e → Derives .repetition s e
  | star {s : List Char} {a : Expr} :
      Derives .repetition s a → Derives .repetition (s ++ ['*']) (.star a)
  | literal {c : Char} : IsLiteral c → Derives .atom [c] (.literal c)
  | group {s : List Char} {e : Expr} : Derives .choice s e → Derives .atom ('(' :: s ++ [')']) e

/-- The characters `s` are a pattern for `e`. -/
abbrev IsPatternOf (s : List Char) (e : Expr) : Prop := Derives .choice s e

namespace Derives

/-- A pattern of a tighter form is one of every looser form. -/
theorem to_choice_of_atom {s : List Char} {e : Expr} (h : Derives .atom s e) : IsPatternOf s e :=
  .chain (.repetition (.atom h))

end Derives

end WholeMatch.Infix
