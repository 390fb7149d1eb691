import Mathlib.Data.Nat.SuccPred
import Mathlib.Order.SuccPred.Archimedean
import WholeMatch.Pattern
import WholeMatch.Proofs.Language
import WholeMatch.Proofs.Shape

/-!
# A run stops at the first hopeless character

From every state of an assembled automaton the accept state can be reached, so while a state is
active something can follow that is accepted, and when none is nothing can
(`Automaton.IsThompson.activeAfter_eq_empty_iff`). A run therefore looks at what some word of the
expression begins with, at one character more if there is one, and at nothing after that
(`Postorder.assemble_run_stops`).
-/

namespace WholeMatch

/-- Some word of the expression begins with these characters. -/
def Expr.IsBeginning (e : Expr) (u : List Char) : Prop := ∃ v, u ++ v ∈ e.language

theorem Expr.isBeginning_nil (e : Expr) : e.IsBeginning [] := e.language_nonempty

namespace Automaton

variable {m : Automaton} {q r t : Nat} {u v w : List Char} {c : Char}

/-! ### Every state has a way to the accept state -/

namespace IsThompson

/-- Every edge can be the first step of a path: the only edge of a labeled state is the one that is
followed when its label is consumed. -/
theorem exists_path_of_edge (h : m.IsThompson) (edge : m.Edge q r) (path : m.Path r v t) :
    ∃ w, m.Path q w t := by
  obtain ⟨s, known, edge⟩ := edge
  cases label : s.label with
  | none => exact ⟨v, .silent ⟨s, known, label, edge⟩ path⟩
  | some c =>
    have labeled : s.isSilent = false := by rw [State.isSilent, label, Option.isNone_some]
    obtain ⟨only, single⟩ := List.length_eq_one_iff.1 (h.labeled_edges q s known labeled)
    rw [single, List.mem_singleton] at edge
    refine ⟨c :: v, .consume ⟨s, known, label, ?_⟩ path⟩
    rw [single, edge, List.head?_cons]

theorem exists_path_to_accept (h : m.IsThompson) (known : (m.state? q).isSome) :
    ∃ w, m.Path q w m.accept := by
  induction h.leads_to_accept q known using Relation.ReflTransGen.head_induction_on with
  | refl => exact ⟨[], .refl h.accept_known⟩
  | head edge _ ih =>
    obtain ⟨v, path⟩ := ih (h.target_known _ _ edge)
    exact h.exists_path_of_edge edge path

/-- No state is active after characters that begin no accepted word, and only after those. -/
theorem activeAfter_eq_empty_iff (h : m.IsThompson) :
    m.activeAfter u = ∅ ↔ ∀ v, u ++ v ∉ m.language := by
  rw [Std.ExtTreeSet.eq_empty_iff_forall_not_mem]
  constructor
  · intro none v word
    obtain ⟨q, before, _⟩ := Path.exists_of_append (mem_language_iff.1 word)
    exact none q (mem_activeAfter_iff.2 before)
  · intro hopeless q active
    have before := mem_activeAfter_iff.1 active
    obtain ⟨v, after⟩ := h.exists_path_to_accept before.target_known
    exact hopeless v (mem_language_iff.2 (before.append after))

end IsThompson

/-! ### What a run looks at -/

theorem recordsFrom_append_singleton (m : Automaton) (active : StateSet) (position : Nat)
    (u : List Char) (c : Char) :
    m.recordsFrom active position (u ++ [c]) =
      m.recordsFrom active position u ++
        [⟨c, position + u.length, ((u ++ [c]).foldl m.advance active).size⟩] := by
  induction u generalizing active position with
  | nil => rfl
  | cons d u ih =>
    rw [List.cons_append, recordsFrom, recordsFrom, ih, List.cons_append, List.foldl_cons,
      List.length_cons, Nat.add_assoc, Nat.add_comm 1]

theorem records_append_singleton (m : Automaton) (u : List Char) (c : Char) :
    m.records (u ++ [c]) =
      m.records u ++ [⟨c, u.length, (m.activeAfter (u ++ [c])).size⟩] := by
  rw [records, recordsFrom_append_singleton, Nat.zero_add]
  rfl

theorem length_records (m : Automaton) (u : List Char) : (m.records u).length = u.length := by
  induction u using List.reverseRecOn with
  | nil => rfl
  | append_singleton u c ih =>
    rw [records_append_singleton, List.length_append, ih, List.length_append]
    rfl

/-- States that are active now were reached by way of active ones. -/
theorem survives_of_activeAfter_ne_empty (alive : m.activeAfter u ≠ ∅) : m.Survives u := by
  rintro read ⟨rest, rfl⟩ _ gone
  rw [activeAfter_append, gone, foldl_advance_empty] at alive
  exact alive rfl

theorem active_ne_zero_of_mem_records (survives : m.Survives u) :
    ∀ seen ∈ m.records u, seen.active ≠ 0 := by
  induction u using List.reverseRecOn with
  | nil => exact fun _ member => absurd member List.not_mem_nil
  | append_singleton u c ih =>
    have earlier : m.Survives u := fun read initial =>
      survives read (initial.trans (List.prefix_append u [c]))
    have alive : m.activeAfter (u ++ [c]) ≠ ∅ := survives _ (List.prefix_refl _) (by simp)
    intro seen member
    rw [records_append_singleton] at member
    rcases List.mem_append.1 member with before | last
    · exact ih earlier seen before
    · rw [List.mem_singleton.1 last]
      exact fun zero => alive (Std.ExtTreeSet.eq_empty_iff_size_eq_zero.2 zero)

/-- A run that never loses all its states looks at every character. -/
theorem consumed_run_of_survives (survives : m.Survives u) : (m.run u).consumed = m.records u := by
  have whole := run_append survives []
  rw [List.append_nil] at whole
  rw [whole, Run.after, runFrom, List.append_nil]

/-- A run ends with the character after which no state is active. -/
theorem consumed_run_of_gone (survives : m.Survives u) (gone : m.activeAfter (u ++ [c]) = ∅)
    (rest : List Char) : (m.run (u ++ c :: rest)).consumed = m.records (u ++ [c]) := by
  have next : m.advance (m.activeAfter u) c = ∅ := by
    rwa [activeAfter_append, List.foldl_cons, List.foldl_nil] at gone
  rw [run_append survives, Run.after, runFrom, records_append_singleton, gone]
  simp [next]

end Automaton

/-! ### Runs of the automaton of an expression -/

theorem Expr.activeAfter_automaton_eq_empty_iff {e : Expr} {u : List Char} :
    e.automaton.activeAfter u = ∅ ↔ ¬ e.IsBeginning u := by
  have shape := e.isTrim_automaton.isThompson e.isOperand_automaton
  rw [shape.activeAfter_eq_empty_iff, e.language_automaton, IsBeginning, not_exists]

theorem Expr.survives_of_isBeginning {e : Expr} {u : List Char} (beginning : e.IsBeginning u) :
    e.automaton.Survives u :=
  Automaton.survives_of_activeAfter_ne_empty fun gone =>
    activeAfter_automaton_eq_empty_iff.1 gone beginning

/-- Among the parts of a text with which a word can begin, there is a longest one. -/
theorem Expr.exists_longest_beginning (e : Expr) (w : List Char) :
    ∃ longest, IsGreatest {n | n ≤ w.length ∧ e.IsBeginning (w.take n)} longest :=
  BddAbove.exists_isGreatest_of_nonempty ⟨w.length, fun _ member => member.1⟩
    ⟨0, Nat.zero_le _, e.isBeginning_nil⟩

/-- A run looks at the longest beginning and at the character that follows it, if one does, and only
with that one can all states be lost. -/
theorem Expr.consumed_run_automaton {e : Expr} {w : List Char} {longest : Nat}
    (h : IsGreatest {n | n ≤ w.length ∧ e.IsBeginning (w.take n)} longest) :
    (e.automaton.run w).consumed = e.automaton.records (w.take (longest + 1)) ∧
      ∀ seen ∈ (e.automaton.run w).consumed.dropLast, seen.active ≠ 0 := by
  obtain ⟨⟨le, beginning⟩, greatest⟩ := h
  have survives := survives_of_isBeginning beginning
  rcases Nat.lt_or_eq_of_le le with lt | rfl
  · have next : w.take longest ++ [w[longest]] = w.take (longest + 1) := List.take_append_getElem lt
    have whole : w.take longest ++ w[longest] :: w.drop (longest + 1) = w := by
      rw [List.getElem_cons_drop, List.take_append_drop]
    have gone : e.automaton.activeAfter (w.take longest ++ [w[longest]]) = ∅ := by
      rw [next, activeAfter_automaton_eq_empty_iff]
      intro longer
      exact absurd (greatest ⟨lt, longer⟩) (Nat.not_succ_le_self longest)
    have looked := Automaton.consumed_run_of_gone survives gone (w.drop (longest + 1))
    rw [whole] at looked
    rw [looked, Automaton.records_append_singleton, List.dropLast_concat,
      ← Automaton.records_append_singleton, next]
    exact ⟨rfl, Automaton.active_ne_zero_of_mem_records survives⟩
  · rw [List.take_length] at survives
    rw [List.take_of_length_le (Nat.le_succ _), Automaton.consumed_run_of_survives survives]
    refine ⟨rfl, ?_⟩
    intro seen member
    exact Automaton.active_ne_zero_of_mem_records survives seen (List.mem_of_mem_dropLast member)

/-- Assembled from the post-order of an expression, an automaton has no active state exactly after
what no word begins with. A run on a subject looks at the longest part with which some word begins
and at one character more, as far as the subject goes, keeps one record for each character it looks
at, and only the last of them can tell that no state is active. -/
theorem Postorder.assemble_run_stops (e : Expr) :
    ∃ m, (e.postorder.assemble none).result = .ok m ∧
      (∀ limit m', (e.postorder.assemble limit).result = .ok m' → m' = m) ∧
      (∀ u, m.activeAfter u = ∅ ↔ ∀ v, u ++ v ∉ e.language) ∧
      ∀ subject : String, ∃ longest,
        IsGreatest {n | n ≤ subject.toList.length ∧ ∃ v, subject.toList.take n ++ v ∈ e.language}
          longest ∧
        (m.run subject.toList).consumed = m.records (subject.toList.take (longest + 1)) ∧
        m.journal subject = (m.records (subject.toList.take (longest + 1))).map .consumed ∧
        (m.journal subject).length = min subject.toList.length (longest + 1) ∧
        ∀ seen ∈ (m.run subject.toList).consumed.dropLast, seen.active ≠ 0 := by
  refine ⟨e.automaton, result_assemble_postorder e, ?_, ?_, ?_⟩
  · intro limit m' assembled
    have unlimited := result_assemble_none_of_ok assembled
    rw [result_assemble_postorder, Except.ok.injEq] at unlimited
    exact unlimited.symm
  · intro u
    rw [Expr.activeAfter_automaton_eq_empty_iff, Expr.IsBeginning, not_exists]
  · intro subject
    obtain ⟨longest, greatest⟩ := e.exists_longest_beginning subject.toList
    obtain ⟨looked, alive⟩ := Expr.consumed_run_automaton greatest
    have journal : e.automaton.journal subject =
        (e.automaton.records (subject.toList.take (longest + 1))).map .consumed := by
      rw [Automaton.journal, looked]
    refine ⟨longest, greatest, looked, journal, ?_, alive⟩
    rw [journal, List.length_map, Automaton.length_records, List.length_take, Nat.min_comm]

end WholeMatch
