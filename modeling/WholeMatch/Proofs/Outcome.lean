import WholeMatch.Command.Outcome
import WholeMatch.Proofs.Building
import WholeMatch.Proofs.Unquoting

/-!
# The command shows what the library builds

The command goes through the stages itself and shows each of them as soon as it is done, while a
draft is built in one go. Both come to the same end (`Command.Options.run_agrees_with_build`): a
pattern that can be built is shown with a verdict for each subject, each on a line of its own, and
where it cannot be built, the error of the draft is told after the post-order if there is one to
show.
-/

namespace WholeMatch

namespace Command

variable {o : Options} {p : Pattern} {e : Error}

/-- A verdict is one line. -/
theorem exists_toList_verdictLine (automaton : Automaton) (subject : String) :
    ∃ line, '\n' ∉ line ∧ (verdictLine automaton subject).toList = line ++ ['\n'] := by
  have quoted : '\n' ∉ Text.quotedText subject.toList :=
    Text.newline_not_mem_quoted (by decide) subject.toList
  unfold verdictLine
  split
  · exact ⟨Text.quotedText subject.toList ++ ": match".toList, by simp [quoted], by simp⟩
  · exact ⟨Text.quotedText subject.toList ++ ": no match".toList, by simp [quoted], by simp⟩

namespace Options

/-- The draft of what the command is to match with. -/
def draft (o : Options) : Draft := Draft.withLimit { text := o.pattern } o.limit

theorem run_of_built (built : o.draft.build.result = .ok p) :
    o.run = ⟨0,
      (if o.showPostorder then p.postorder.text ++ "\n" else "") ++
        (if o.showStates then p.automaton.dump else "") ++
        String.join (o.subjects.map (verdictLine p.automaton)), ""⟩ := by
  obtain ⟨_, read, assembled⟩ := Draft.result_build_eq_ok_iff.1 built
  have read : (Postorder.ofPattern o.pattern).result = .ok p.postorder := read
  have assembled : (p.postorder.assemble o.limit).result = .ok p.automaton := assembled
  simp only [run, read, assembled]

theorem run_of_not_built (failed : o.draft.build.result = .error e) :
    o.run = ⟨1,
      (match (Postorder.ofPattern o.pattern).result with
        | .ok postorder => if o.showPostorder then postorder.text ++ "\n" else ""
        | .error _ => ""),
      "error: " ++ e.message ++ "\n"⟩ := by
  rw [Draft.result_build] at failed
  rcases bind_eq_error_iff.1 failed with unread | ⟨postorder, read, failed⟩
  · have unread : (Postorder.ofPattern o.pattern).result = .error e := unread
    simp only [run, unread, Outcome.failure]
  · have read : (Postorder.ofPattern o.pattern).result = .ok postorder := read
    rcases bind_eq_error_iff.1 failed with unassembled | ⟨_, _, impossible⟩
    · have unassembled : (postorder.assemble o.limit).result = .error e := unassembled
      simp only [run, read, unassembled, Outcome.failure]
    · cases impossible

/-- What the command does is what building the draft comes to. If there is a pattern, all that was
asked for is shown, the verdicts last, one line for each subject in the order given. If there is
none, the error is told, and only the post-order can have been shown before, if it was asked for and
the text could be read. -/
theorem run_agrees_with_build (o : Options) :
    (∀ p, (Draft.withLimit { text := o.pattern } o.limit).build.result = .ok p →
      o.run.exitCode = 0 ∧ o.run.stderr = "" ∧
        ∃ verdicts,
          verdicts = o.subjects.map (fun subject => String.ofList (Text.quotedText subject.toList) ++
            if p.accepts subject then ": match\n" else ": no match\n") ∧
          (∀ verdict ∈ verdicts, ∃ line, '\n' ∉ line ∧ verdict.toList = line ++ ['\n']) ∧
          o.run.stdout = (if o.showPostorder then p.postorder.text ++ "\n" else "") ++
            (if o.showStates then p.automaton.dump else "") ++ String.join verdicts) ∧
    (∀ e, (Draft.withLimit { text := o.pattern } o.limit).build.result = .error e →
      o.run.exitCode = 1 ∧ o.run.stderr = "error: " ++ e.message ++ "\n" ∧
        (∀ postorder, o.showPostorder = true →
          (Postorder.ofPattern o.pattern).result = .ok postorder →
          o.run.stdout = postorder.text ++ "\n") ∧
        (o.showPostorder = false ∨ (∃ e', (Postorder.ofPattern o.pattern).result = .error e') →
          o.run.stdout = "")) := by
  constructor
  · intro p built
    rw [run_of_built built]
    refine ⟨rfl, rfl, o.subjects.map (verdictLine p.automaton), rfl, ?_, rfl⟩
    intro verdict member
    obtain ⟨subject, _, rfl⟩ := List.mem_map.1 member
    exact exists_toList_verdictLine p.automaton subject
  · intro e failed
    rw [run_of_not_built failed]
    refine ⟨rfl, rfl, ?_, ?_⟩
    · intro postorder asked read
      simp only [read, asked, if_true]
    · intro nothing
      cases read : (Postorder.ofPattern o.pattern).result with
      | error e' => rfl
      | ok postorder =>
        rcases nothing with unasked | ⟨e', unread⟩
        · simp only [unasked, Bool.false_eq_true, if_false]
        · rw [read] at unread
          cases unread

/-- The post-order stays when the limit is too small for the automaton. -/
example : run ⟨"a*", ["a"], true, true, some 3⟩ =
    ⟨1, "a*\n", "error: expression is too complex (more than 3 states)\n"⟩ := by
  decide +kernel

end Options

end Command

end WholeMatch
