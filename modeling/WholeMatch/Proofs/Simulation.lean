import Mathlib.Data.List.Induction
import WholeMatch.Automaton.Simulation
import WholeMatch.Proofs.Closure

/-!
# The simulation follows exactly the paths

The states active after a word are those that paths from the start reach by consuming it
(`mem_activeAfter_iff`); nothing is assumed of the automaton, which may be cyclic, have edges to
states that do not exist and start or accept where there is no state. The loop that runs it goes
through these sets one after the other (`run_append`), and leaving it at an empty one does not
change the verdict, since nothing ever becomes active again (`accepted_runFrom`).
-/

namespace WholeMatch

namespace Automaton

variable {m : Automaton} {q r t : Nat} {u v w : List Char} {c : Char}

/-! ### Paths in parts -/

namespace Path

/-- A path that consumes one word after another can be cut between them. -/
theorem exists_of_append (h : m.Path q (u ++ v) t) : ∃ r, m.Path q u r ∧ m.Path r v t := by
  generalize word : u ++ v = w at h
  induction h generalizing u with
  | refl known =>
    obtain ⟨rfl, rfl⟩ := List.append_eq_nil_iff.1 word
    exact ⟨_, .refl known, .refl known⟩
  | silent edge _ ih =>
    obtain ⟨r, first, second⟩ := ih word
    exact ⟨r, .silent edge first, second⟩
  | @consume q r t c w edge rest ih =>
    cases u with
    | nil =>
      rw [List.nil_append] at word
      subst word
      have whole : m.Path q (c :: w) t := .consume edge rest
      exact ⟨q, .refl whole.source_known, whole⟩
    | cons d u =>
      rw [List.cons_append, List.cons.injEq] at word
      obtain ⟨rfl, word⟩ := word
      obtain ⟨r, first, second⟩ := ih word
      exact ⟨r, .consume edge first, second⟩

/-- Before a path consumes a character, it consumes nothing. -/
theorem exists_of_cons (h : m.Path q (c :: w) t) :
    ∃ r r', m.Path q [] r ∧ m.ConsumingStep r c r' ∧ m.Path r' w t := by
  generalize word : c :: w = v at h
  induction h with
  | refl _ => cases word
  | silent edge _ ih =>
    obtain ⟨r, r', before, step, after⟩ := ih word
    exact ⟨r, r', .silent edge before, step, after⟩
  | @consume q r t d v edge rest _ =>
    rw [List.cons.injEq] at word
    obtain ⟨rfl, rfl⟩ := word
    exact ⟨q, r, .refl (consume edge rest).source_known, edge, rest⟩

theorem snoc_iff :
    m.Path q (u ++ [c]) t ↔
      ∃ r r', m.Path q u r ∧ m.ConsumingStep r c r' ∧ m.Path r' [] t := by
  constructor
  · intro h
    obtain ⟨p, first, last⟩ := exists_of_append h
    obtain ⟨r, r', silent, step, after⟩ := exists_of_cons last
    refine ⟨r, r', ?_, step, after⟩
    simpa using first.append silent
  · intro parts
    obtain ⟨r, r', first, step, last⟩ := parts
    exact first.append (.consume step last)

end Path

/-! ### Sets of active states -/

theorem activeAfter_append (m : Automaton) (u v : List Char) :
    m.activeAfter (u ++ v) = v.foldl m.advance (m.activeAfter u) :=
  List.foldl_append

theorem mem_initial_iff : q ∈ m.initial ↔ m.Path m.start [] q := by
  simp [initial, mem_close_empty_iff]

/-- Where a state is moved by a character is where a consuming step leads. -/
theorem target?_iff_consumingStep :
    (m.state? q).bind (·.target? c) = some r ↔ m.ConsumingStep q c r := by
  simp [ConsumingStep, Option.bind_eq_some_iff, State.target?_eq_some_iff]

/-- One character moves each active state that consumes it, and then follows silent edges. -/
theorem mem_advance_iff {active : StateSet} :
    t ∈ m.advance active c ↔
      ∃ q ∈ active, ∃ r, m.ConsumingStep q c r ∧ m.Path r [] t := by
  rw [advance, mem_close_empty_iff]
  constructor
  · intro closed
    obtain ⟨r, moved, path⟩ := closed
    obtain ⟨q, member, target⟩ := List.mem_filterMap.1 moved
    exact ⟨q, Std.ExtTreeSet.mem_toList.1 member, r, target?_iff_consumingStep.1 target, path⟩
  · intro consumed
    obtain ⟨q, member, r, step, path⟩ := consumed
    refine ⟨r, List.mem_filterMap.2 ⟨q, Std.ExtTreeSet.mem_toList.2 member, ?_⟩, path⟩
    exact target?_iff_consumingStep.2 step

/-- The states active after a word are those that paths from the start reach by consuming it. -/
theorem mem_activeAfter_iff : q ∈ m.activeAfter u ↔ m.Path m.start u q := by
  induction u using List.reverseRecOn generalizing q with
  | nil => exact mem_initial_iff
  | append_singleton u c ih =>
    rw [activeAfter_append, List.foldl_cons, List.foldl_nil, mem_advance_iff, Path.snoc_iff]
    constructor
    · intro active
      obtain ⟨r, member, r', step, path⟩ := active
      exact ⟨r, r', ih.1 member, step, path⟩
    · intro parts
      obtain ⟨r, r', before, step, path⟩ := parts
      exact ⟨r, ih.2 before, r', step, path⟩

/-! ### The loop -/

/-- The records of consuming all of a word from the `active` states at a position, also where no
state is active any more. -/
def recordsFrom (m : Automaton) (active : StateSet) (position : Nat) : List Char → List Consumed
  | [] => []
  | c :: rest =>
    let next := m.advance active c
    ⟨c, position, next.size⟩ :: m.recordsFrom next (position + 1) rest

/-- The records of consuming all of a word from the start. -/
def records (m : Automaton) (word : List Char) : List Consumed := m.recordsFrom m.initial 0 word

/-- Some state is active after each part of the word, so that a run gets past it. -/
def Survives (m : Automaton) (word : List Char) : Prop :=
  ∀ read, read <+: word → read ≠ [] → m.activeAfter read ≠ ∅

end Automaton

/-- A run that goes on after some characters have been looked at. -/
def Run.after (seen : List Consumed) (later : Run) : Run :=
  { later with consumed := seen ++ later.consumed }

namespace Automaton

variable {m : Automaton}

/-- Where no state is active, none becomes active. -/
theorem foldl_advance_empty (m : Automaton) (word : List Char) :
    word.foldl m.advance ∅ = ∅ := by
  induction word with
  | nil => rfl
  | cons c rest ih =>
    have still : m.advance ∅ c = ∅ := by
      rw [Std.ExtTreeSet.eq_empty_iff_forall_not_mem]
      intro t member
      obtain ⟨q, active, _⟩ := mem_advance_iff.1 member
      exact Std.ExtTreeSet.not_mem_empty active
    rw [List.foldl_cons, still, ih]

/-- The verdict is that of consuming the whole subject, wherever the loop is left. -/
theorem accepted_runFrom (m : Automaton) (active : StateSet) (position : Nat)
    (rest : List Char) :
    (m.runFrom active position rest).accepted =
      (rest.foldl m.advance active).contains m.accept := by
  induction rest generalizing active position with
  | nil => rfl
  | cons c rest ih =>
    rw [accepted_runFrom_cons, List.foldl_cons, ih]
    cases gone : (m.advance active c).isEmpty with
    | true =>
      rw [Std.ExtTreeSet.isEmpty_iff] at gone
      rw [gone, foldl_advance_empty]
      simp
    | false => simp

theorem runFrom_append {active : StateSet} {position : Nat} {u v : List Char}
    (survives : ∀ read, read <+: u → read ≠ [] → read.foldl m.advance active ≠ ∅) :
    m.runFrom active position (u ++ v) =
      (m.runFrom (u.foldl m.advance active) (position + u.length) v).after
        (m.recordsFrom active position u) := by
  induction u generalizing active position with
  | nil => rfl
  | cons c u ih =>
    have alive : (m.advance active c).isEmpty = false := by
      rw [Bool.eq_false_iff, Ne, Std.ExtTreeSet.isEmpty_iff]
      exact survives [c] (by simp) (by simp)
    have later : ∀ read, read <+: u → read ≠ [] →
        read.foldl m.advance (m.advance active c) ≠ ∅ := by
      intro read initial _
      exact survives (c :: read) (by simpa using initial) (by simp)
    rw [List.cons_append, runFrom, ih later]
    simp only [alive, Bool.false_eq_true, if_false, Run.after, recordsFrom, List.cons_append,
      List.foldl_cons, List.length_cons, Nat.add_assoc, Nat.add_comm 1]

/-- A run that gets past a part of the subject goes on from the states active after it. -/
theorem run_append {u : List Char} (survives : m.Survives u) (v : List Char) :
    m.run (u ++ v) = (m.runFrom (m.activeAfter u) u.length v).after (m.records u) := by
  rw [run, runFrom_append survives, Nat.zero_add]
  rfl

/-- Leaving the loop early never changes the verdict. -/
theorem accepts_eq_contains (m : Automaton) (subject : String) :
    m.accepts subject = (m.activeAfter subject.toList).contains m.accept :=
  accepted_runFrom m m.initial 0 subject.toList

/-- A subject is accepted when a path from the start to the accept state consumes it. -/
theorem accepts_iff_spells {subject : String} :
    m.accepts subject = true ↔ m.Spells subject.toList := by
  rw [accepts_eq_contains, Std.ExtTreeSet.contains_iff_mem, mem_activeAfter_iff, Spells]

/-- On every automaton and every subject: a run that gets past `read` stands at the set of states
active after it, this set is that of the states which paths from the start reach by consuming
`read`, and the verdict is that of the paths to the accept state, as if the loop were never left
early. -/
theorem run_follows_paths (m : Automaton) (subject : String) :
    (∀ read rest, subject.toList = read ++ rest → m.Survives read →
      m.run subject.toList =
        (m.runFrom (m.activeAfter read) read.length rest).after (m.records read)) ∧
    (∀ read q, q ∈ m.activeAfter read ↔ m.Path m.start read q) ∧
    (m.accepts subject = true ↔ m.Spells subject.toList) ∧
    m.accepts subject = (m.activeAfter subject.toList).contains m.accept := by
  refine ⟨?_, fun read q => mem_activeAfter_iff, accepts_iff_spells, accepts_eq_contains m subject⟩
  intro read rest parts survives
  rw [parts, run_append survives]

end Automaton

end WholeMatch
