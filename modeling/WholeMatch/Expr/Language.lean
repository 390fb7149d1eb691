import Mathlib.Computability.Language
import WholeMatch.Expr.Basic

/-!
# The language of an expression

The words an expression stands for, in the algebra of languages.
-/

namespace WholeMatch.Expr

/-- A literal is its one-character word; the operators are product, sum and closure. -/
def language : Expr → Language Char
  | literal c => {[c]}
  | concat a b => a.language * b.language
  | alternate a b => a.language + b.language
  | star a => KStar.kstar a.language

theorem mem_language_literal {c : Char} {w : List Char} :
    w ∈ (literal c).language ↔ w = [c] :=
  Set.mem_singleton_iff

theorem mem_language_concat {a b : Expr} {w : List Char} :
    w ∈ (concat a b).language ↔ ∃ u ∈ a.language, ∃ v ∈ b.language, u ++ v = w :=
  Language.mem_mul

theorem mem_language_alternate {a b : Expr} {w : List Char} :
    w ∈ (alternate a b).language ↔ w ∈ a.language ∨ w ∈ b.language :=
  Iff.rfl

theorem mem_language_star {a : Expr} {w : List Char} :
    w ∈ (star a).language ↔ ∃ words : List (List Char),
      w = words.flatten ∧ ∀ v ∈ words, v ∈ a.language :=
  Language.mem_kstar

/-- No expression has an empty language. -/
theorem language_nonempty (e : Expr) : ∃ w, w ∈ e.language := by
  induction e with
  | literal c => exact ⟨[c], mem_language_literal.2 rfl⟩
  | concat a b iha ihb =>
    obtain ⟨u, hu⟩ := iha
    obtain ⟨v, hv⟩ := ihb
    exact ⟨u ++ v, mem_language_concat.2 ⟨u, hu, v, hv, rfl⟩⟩
  | alternate a b iha _ =>
    obtain ⟨u, hu⟩ := iha
    exact ⟨u, mem_language_alternate.2 (.inl hu)⟩
  | star a _ => exact ⟨[], mem_language_star.2 ⟨[], rfl, by simp⟩⟩

end WholeMatch.Expr
