import Mathlib.Logic.Function.Iterate
import WholeMatch.Proofs.Simulation

/-!
# The loop that closes a set

One turn of the loop takes a name off the list: it is passed over if it names no state or one that
the set already has, and else it is added and its silent edges are listed before the rest
(`Automaton.turn`). No turn changes what the loop will end with, and each takes from the work there
is left, so the list runs empty however the edges go round (`Automaton.exists_turns`).

Only the states in the set at the beginning block a silent path, never those that earlier calls have
added, so closing one state after another on the same set is closing the list
(`Automaton.closeEach_eq_close`), and neither its order nor a repetition can be seen in the result
(`Automaton.closeEach_follows_silent_paths`).
-/

namespace WholeMatch.Automaton

variable {m : Automaton} {seen : StateSet} {id : Nat} {s : State} {todo ids : List Nat}

/-! ### One turn -/

/-- One turn of the loop on what has been seen and what is still listed; nothing is done once the
list is empty. -/
def turn (m : Automaton) : StateSet × List Nat → StateSet × List Nat
  | (seen, []) => (seen, [])
  | (seen, id :: todo) =>
    match m.state? id with
    | none => (seen, todo)
    | some s => if id ∈ seen then (seen, todo) else (seen.insert id, s.silentEdges ++ todo)

/-- A bound on the turns that are left: one for each listed name, and for each state that can still
be added one and one more for each of its silent edges. -/
def work (m : Automaton) (loop : StateSet × List Nat) : Nat :=
  m.unvisitedWeight loop.1 + loop.2.length

/-- A turn changes nothing about the end of the loop, and leaves less work to do. -/
theorem close_turn (m : Automaton) (seen : StateSet) (id : Nat) (todo : List Nat) :
    m.close (m.turn (seen, id :: todo)).1 (m.turn (seen, id :: todo)).2 =
        m.close seen (id :: todo) ∧
      m.work (m.turn (seen, id :: todo)) < m.work (seen, id :: todo) := by
  cases known : m.state? id with
  | none =>
    have passed : m.turn (seen, id :: todo) = (seen, todo) := by simp only [turn, known]
    rw [passed, close_cons_of_unknown known]
    exact ⟨rfl, Nat.lt_succ_self _⟩
  | some s =>
    by_cases visited : id ∈ seen
    · have passed : m.turn (seen, id :: todo) = (seen, todo) := by
        simp only [turn, known, visited, if_true]
      rw [passed, close_cons_of_mem visited]
      exact ⟨rfl, Nat.lt_succ_self _⟩
    · have added : m.turn (seen, id :: todo) = (seen.insert id, s.silentEdges ++ todo) := by
        simp only [turn, known, visited, if_false]
      rw [added, close_cons_of_fresh known visited]
      have spent := unvisitedWeight_insert known visited
      refine ⟨rfl, ?_⟩
      simp only [work, List.length_append, List.length_cons]
      omega

/-! ### The whole loop -/

/-- The loop ends, with what closing the list gives, and takes no more turns than there is work. -/
theorem exists_turns (m : Automaton) (seen : StateSet) (todo : List Nat) :
    ∃ turns ≤ m.work (seen, todo), m.turn^[turns] (seen, todo) = (m.close seen todo, []) := by
  -- edges may lead back to what is seen, so it is not the list that gets shorter but the work
  induction bound : m.work (seen, todo) using Nat.strongRecOn generalizing seen todo with
  | ind bound ih =>
    subst bound
    cases todo with
    | nil => exact ⟨0, Nat.zero_le _, by rw [close_nil]; rfl⟩
    | cons id todo =>
      obtain ⟨same, less⟩ := m.close_turn seen id todo
      obtain ⟨turns, le, ended⟩ := ih _ less _ _ rfl
      refine ⟨turns + 1, Nat.lt_of_le_of_lt le less, ?_⟩
      rw [Function.iterate_succ_apply, ← same]
      exact ended

/-- Closes each of some states on the same set, one after the other. -/
def closeEach (m : Automaton) (seen : StateSet) (ids : List Nat) : StateSet :=
  ids.foldl (fun reached id => m.close reached [id]) seen

theorem closeEach_eq_close (m : Automaton) (seen : StateSet) (ids : List Nat) :
    m.closeEach seen ids = m.close seen ids := by
  induction ids generalizing seen with
  | nil => rw [close_nil]; rfl
  | cons id ids ih =>
    show m.closeEach (m.close seen [id]) ids = m.close seen (id :: ids)
    rw [ih, ← close_append]
    rfl

/-- The set a closure ends with depends on the listed states alone, not on how they are listed. -/
theorem close_congr {ids' : List Nat} (same : ∀ id, id ∈ ids' ↔ id ∈ ids) :
    m.close seen ids' = m.close seen ids := by
  apply Std.ExtTreeSet.ext_mem
  intro t
  simp only [mem_close_iff, same]

/-- Closing states one after the other on the same set: the loop of each call ends, the set has at
the end what it had at the beginning and the existing states to which a silent path outside of that
leads from one of the states closed, and these may be given in any order and more than once. So it
makes no difference in which order a run takes its active states. -/
theorem closeEach_follows_silent_paths (m : Automaton) (seen : StateSet) (ids : List Nat) :
    (∀ reached id, ∃ turns ≤ m.work (reached, [id]),
      m.turn^[turns] (reached, [id]) = (m.close reached [id], [])) ∧
    (∀ t, t ∈ m.closeEach seen ids ↔ t ∈ seen ∨ ∃ id ∈ ids, m.SilentPath seen id t) ∧
    (∀ ids', (∀ id, id ∈ ids' ↔ id ∈ ids) → m.closeEach seen ids' = m.closeEach seen ids) ∧
    ∀ (active : StateSet) (c : Char) (order : List Nat), (∀ id, id ∈ order ↔ id ∈ active) →
      m.closeEach ∅ (order.filterMap fun id => (m.state? id).bind (·.target? c)) =
        m.advance active c := by
  refine ⟨fun reached id => m.exists_turns reached [id], ?_, ?_, ?_⟩
  · intro t
    rw [closeEach_eq_close, mem_close_iff]
  · intro ids' same
    rw [closeEach_eq_close, closeEach_eq_close, close_congr same]
  · intro active c order same
    rw [closeEach_eq_close, advance]
    apply close_congr
    intro t
    simp only [List.mem_filterMap, same, Std.ExtTreeSet.mem_toList]

/-- What the set holds at the beginning is not expanded and hides what lies behind it; what is added
on the way hides nothing, though here the same state is found first from one side and then from the
other. -/
theorem closeEach_follows_silent_paths_hidden :
    let m : Automaton :=
      ⟨#[⟨none, [1, 2]⟩, ⟨none, [3]⟩, ⟨none, [0, 9]⟩, ⟨some 'a', [2]⟩, ⟨none, [2]⟩], 0, 0⟩
    (m.closeEach {1, 7} [0]).toList = [0, 1, 2, 7] ∧ m.SilentPath {1, 7} 0 2 ∧
      ¬ m.SilentPath {1, 7} 0 3 ∧
      m.closeEach {1, 7} [4, 0] = m.closeEach {1, 7} [0, 4, 0] ∧
      m.closeEach ∅ [2, 2] = m.advance {0, 3} 'a' := by
  intro m
  have reached : (m.closeEach {1, 7} [0]).toList = [0, 1, 2, 7] := by decide +kernel
  obtain ⟨_, members, _, advanced⟩ := m.closeEach_follows_silent_paths {1, 7} [0]
  have found : m.SilentPath {1, 7} 0 2 := by
    have member : 2 ∈ m.closeEach {1, 7} [0] := by
      rw [← Std.ExtTreeSet.mem_toList, reached]
      decide
    rcases (members 2).1 member with given | ⟨id, listed, path⟩
    · exact absurd given (by decide +kernel)
    · rwa [List.mem_singleton.1 listed] at path
  have hidden : ¬ m.SilentPath {1, 7} 0 3 := by
    intro path
    have found := (members 3).2 (.inr ⟨0, List.mem_cons_self, path⟩)
    rw [← Std.ExtTreeSet.mem_toList, reached] at found
    exact absurd found (by decide)
  have listed : ∀ id, id ∈ [4, 0] ↔ id ∈ [0, 4, 0] := by
    intro id
    simp only [List.mem_cons, List.not_mem_nil, or_false]
    omega
  have reordered := (m.closeEach_follows_silent_paths {1, 7} [0, 4, 0]).2.2.1 [4, 0] listed
  have both : ({0, 3} : StateSet).toList = [0, 3] := by decide +kernel
  have active : ∀ id, id ∈ [3, 0, 3] ↔ id ∈ ({0, 3} : StateSet) := by
    intro id
    rw [← Std.ExtTreeSet.mem_toList, both]
    simp only [List.mem_cons, List.not_mem_nil, or_false]
    omega
  exact ⟨reached, found, hidden, reordered, advanced {0, 3} 'a' [3, 0, 3] active⟩

end WholeMatch.Automaton
