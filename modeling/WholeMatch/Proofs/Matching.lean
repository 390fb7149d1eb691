import WholeMatch.Pattern
import WholeMatch.Proofs.Derivation
import WholeMatch.Proofs.Language

/-!
# Patterns match the words they are written for

From the text of a pattern to the verdict on a subject: whatever the grammar derives can be built,
and matches exactly the words of the expression it is derived for.
-/

namespace WholeMatch

variable {text : String} {e : Expr}

theorem Pattern.ofText_of_isPatternOf (h : Infix.IsPatternOf text.toList e) :
    ofText text = .ok ⟨text, e.postorder, e.automaton⟩ := by
  rw [ofText, Draft.result_build, Postorder.result_ofPattern_of_isPatternOf h]
  show ((e.postorder.assemble none).result >>= _) = _
  rw [Postorder.result_assemble_postorder]
  rfl

/-- Every text that the grammar derives for an expression can be built, and the pattern as well as
the check in one go accept a subject if and only if it is a word of the expression. -/
theorem Pattern.accepts_language (h : Infix.IsPatternOf text.toList e) :
    ∃ p, ofText text = .ok p ∧ ∀ subject : String,
      (p.accepts subject = true ↔ subject.toList ∈ e.language) ∧
      ∃ verdict, WholeMatch.accepts text subject = .ok verdict ∧
        (verdict = true ↔ subject.toList ∈ e.language) := by
  refine ⟨⟨text, e.postorder, e.automaton⟩, ofText_of_isPatternOf h, ?_⟩
  intro subject
  refine ⟨Expr.accepts_automaton_iff, e.automaton.accepts subject, ?_, Expr.accepts_automaton_iff⟩
  rw [WholeMatch.accepts, ofText_of_isPatternOf h]
  rfl

/-- A star around a group in doubled parentheses, after a literal. -/
theorem Pattern.accepts_language_starred_group :
    ∃ p, ofText "a.((b|c))*" = .ok p ∧ ∀ subject : String,
      (p.accepts subject = true ↔ subject.toList ∈
        (Expr.concat (.literal 'a') (.star (.alternate (.literal 'b') (.literal 'c')))).language) ∧
      ∃ verdict, WholeMatch.accepts "a.((b|c))*" subject = .ok verdict ∧
        (verdict = true ↔ subject.toList ∈
          (Expr.concat (.literal 'a')
            (.star (.alternate (.literal 'b') (.literal 'c')))).language) := by
  have letter (c : Char) (h : Infix.IsLiteral c) : Infix.Derives .repetition [c] (.literal c) :=
    .atom (.literal h)
  have choice : Infix.Derives .choice ['b', '|', 'c'] (.alternate (.literal 'b') (.literal 'c')) :=
    .alternate (.repetition (letter 'b' (by decide)))
      (.chain (.repetition (letter 'c' (by decide))))
  have group : Infix.Derives .repetition ['(', '(', 'b', '|', 'c', ')', ')']
      (.alternate (.literal 'b') (.literal 'c')) :=
    .atom (.group (.to_choice_of_atom (.group choice)))
  have derived : Infix.IsPatternOf "a.((b|c))*".toList
      (.concat (.literal 'a') (.star (.alternate (.literal 'b') (.literal 'c')))) :=
    .chain (.concat (letter 'a' (by decide)) (.repetition (.star group)))
  exact accepts_language derived

end WholeMatch
