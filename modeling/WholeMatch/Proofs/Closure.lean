import WholeMatch.Automaton.Closure
import WholeMatch.Automaton.Path

/-!
# What a closure contains

The set that `close` fills is at the same time its result and its record of what has been
expanded, so a state found early keeps others from being expanded again. Nothing is lost by that:
only the states given as `seen` block a silent path, never those added on the way
(`mem_close_iff`). From the empty set, closing is following silent edges freely
(`mem_close_empty_iff`).
-/

namespace WholeMatch.Automaton

/-- A path along silent edges through existing states none of which is `blocked`. -/
inductive SilentPath (m : Automaton) (blocked : StateSet) : Nat → Nat → Prop where
  | refl {q : Nat} : (m.state? q).isSome → q ∉ blocked → SilentPath m blocked q q
  | step {q r t : Nat} :
      q ∉ blocked → m.SilentStep q r → SilentPath m blocked r t → SilentPath m blocked q t

namespace SilentPath

variable {m : Automaton} {blocked : StateSet} {q t : Nat}

theorem source_known (h : m.SilentPath blocked q t) : (m.state? q).isSome := by
  cases h with
  | refl known _ => exact known
  | step _ edge _ =>
    obtain ⟨s, known, -⟩ := edge
    simp [known]

theorem source_not_blocked (h : m.SilentPath blocked q t) : q ∉ blocked := by
  cases h with
  | refl _ free => exact free
  | step free _ _ => exact free

/-- A path stays one when fewer states are blocked. -/
theorem mono {fewer : StateSet} (sub : ∀ id, id ∈ fewer → id ∈ blocked)
    (h : m.SilentPath blocked q t) : m.SilentPath fewer q t := by
  induction h with
  | refl known free => exact .refl known fun member => free (sub _ member)
  | step free edge _ ih => exact .step (fun member => free (sub _ member)) edge ih

/-- A path may be taken to visit a state at most at its beginning: if it comes back to `id`, what
follows the last visit is a path that starts behind `id`. -/
theorem avoid_or_restart (id : Nat) (h : m.SilentPath blocked q t) :
    m.SilentPath (blocked.insert id) q t ∨ t = id ∨
      ∃ r, m.SilentStep id r ∧ m.SilentPath (blocked.insert id) r t := by
  induction h with
  | @refl q found free =>
    by_cases same : q = id
    · exact .inr (.inl same)
    · refine .inl (.refl found ?_)
      simp only [Std.ExtTreeSet.mem_insert, Nat.compare_eq_eq, not_or]
      exact ⟨Ne.symm same, free⟩
  | @step q r t free edge _ ih =>
    rcases ih with avoiding | restart
    · by_cases same : q = id
      · subst same
        exact .inr (.inr ⟨r, edge, avoiding⟩)
      · refine .inl (.step ?_ edge avoiding)
        simp only [Std.ExtTreeSet.mem_insert, Nat.compare_eq_eq, not_or]
        exact ⟨Ne.symm same, free⟩
    · exact .inr restart

end SilentPath

/-- The edges that closing follows are the silent steps. -/
theorem mem_silentEdges_iff_silentStep {m : Automaton} {q r : Nat} {s : State}
    (known : m.state? q = some s) : r ∈ s.silentEdges ↔ m.SilentStep q r := by
  simp [SilentStep, known, State.mem_silentEdges_iff]

/-- Closing adds exactly the states that silent paths outside `seen` reach from `todo`. -/
theorem mem_close_iff {m : Automaton} {seen : StateSet} {todo : List Nat} {t : Nat} :
    t ∈ m.close seen todo ↔ t ∈ seen ∨ ∃ id ∈ todo, m.SilentPath seen id t := by
  fun_induction m.close seen todo with
  | case1 => simp
  | case2 seen id todo unknown ih =>
    have blind : ¬ m.SilentPath seen id t := fun path => by
      simpa [unknown] using path.source_known
    simp [ih, blind]
  | case3 seen id todo s known visited ih =>
    have blind : ¬ m.SilentPath seen id t := fun path => path.source_not_blocked visited
    simp [ih, blind]
  | case4 seen id todo s known fresh ih =>
    have sub : ∀ other, other ∈ seen → other ∈ seen.insert id := fun other member => by
      simp [member]
    have free : (m.state? id).isSome := by simp [known]
    rw [ih]
    constructor
    · intro closed
      rcases closed with member | ⟨r, listed, path⟩
      · rcases Std.ExtTreeSet.mem_insert.1 member with same | old
        · rw [Nat.compare_eq_eq] at same
          subst same
          exact .inr ⟨id, by simp, .refl free fresh⟩
        · exact .inl old
      · rcases List.mem_append.1 listed with edge | later
        · have step := (mem_silentEdges_iff_silentStep known).1 edge
          exact .inr ⟨id, by simp, .step fresh step (path.mono sub)⟩
        · exact .inr ⟨r, by simp [later], path.mono sub⟩
    · intro reached
      rcases reached with old | ⟨r, listed, path⟩
      · exact .inl (sub t old)
      · -- a path is cut at its last visit to the state that is now expanded
        rcases path.avoid_or_restart id with avoiding | rfl | ⟨next, step, avoiding⟩
        · rcases List.mem_cons.1 listed with rfl | later
          · exact absurd (by simp) avoiding.source_not_blocked
          · exact .inr ⟨r, by simp [later], avoiding⟩
        · exact .inl (by simp)
        · have edge := (mem_silentEdges_iff_silentStep known).2 step
          exact .inr ⟨next, by simp [edge], avoiding⟩

/-- Where nothing is blocked, silent paths are the paths that consume nothing. -/
theorem silentPath_empty_iff {m : Automaton} {q t : Nat} :
    m.SilentPath ∅ q t ↔ m.Path q [] t := by
  constructor
  · intro h
    induction h with
    | refl known _ => exact .refl known
    | step _ edge _ ih => exact .silent edge ih
  · intro h
    generalize word : ([] : List Char) = w at h
    induction h with
    | refl known => exact .refl known (by simp)
    | silent edge _ ih => exact .step (by simp) edge (ih word)
    | consume _ _ _ => cases word

/-- From the empty set, closing adds what paths that consume nothing reach. -/
theorem mem_close_empty_iff {m : Automaton} {todo : List Nat} {t : Nat} :
    t ∈ m.close ∅ todo ↔ ∃ id ∈ todo, m.Path id [] t := by
  simp [mem_close_iff, silentPath_empty_iff]

end WholeMatch.Automaton
