import WholeMatch.Proofs.Waiting

/-!
# The order in which tokens leave

Tokens leave in the order of their times, those of one time in the reverse order of the pattern,
since the stack holds them so (`Reading.pairwise_emissions`). Together with the times at which they
are due this describes the output and the journal of a reading without its stack
(`Postorder.ofPattern_emissions`).
-/

namespace WholeMatch.Infix

variable {stack below : List Pending} {popped : List (Operator × Nat)} {position time : Nat}

/-- What waits comes from before `position`, the last one first. -/
def Descends (position : Nat) (stack : List Pending) : Prop :=
  (position :: stack.map Pending.place).Pairwise (· > ·)

/-- Tokens leave in the order of their times; of those that leave together, the last one of the
pattern comes first. -/
def Emission.Before (e f : Emission) : Prop :=
  e.time < f.time ∨ (e.time = f.time ∧ f.origin < e.origin)

namespace Descends

theorem succ (h : Descends position stack) : Descends (position + 1) stack := by
  obtain ⟨lt, sorted⟩ := List.pairwise_cons.1 h
  exact .cons (fun place member => Nat.lt_succ_of_lt (lt place member)) sorted

theorem push (h : Descends position stack) {top : Pending} (new : top.place = position) :
    Descends (position + 1) (top :: stack) := by
  rw [Descends, List.map_cons, new]
  refine .cons ?_ h
  intro place member
  rcases List.mem_cons.1 member with rfl | member
  · exact Nat.lt_succ_self _
  · exact Nat.lt_succ_of_lt (List.rel_of_pairwise_cons h member)

/-- What is taken off the stack descends, and so does what is left. -/
theorem popWhile {leaves : Operator → Bool} (h : Descends position stack)
    (popping : Infix.popWhile leaves stack = (popped, below)) :
    (popped.map (·.2)).Pairwise (· > ·) ∧ Descends position below := by
  have parts := popWhile_append leaves stack
  rw [popping] at parts
  obtain ⟨lt, sorted⟩ := List.pairwise_cons.1 h
  have places : stack.map Pending.place = popped.map (·.2) ++ below.map Pending.place := by
    rw [← parts, List.map_append, List.map_map]
    rfl
  rw [places] at lt sorted
  rw [List.pairwise_append] at sorted
  exact ⟨sorted.1, .cons (fun place member => lt place (List.mem_append_right _ member)) sorted.2.1⟩

end Descends

theorem time_of_mem_release {displacer : Option Operator} {e : Emission}
    (member : e ∈ release time displacer popped) : e.time = time := by
  obtain ⟨_, _, _, rfl⟩ := mem_release member
  rfl

/-- Operators leave together in the order in which they are taken off the stack. -/
theorem pairwise_release {displacer : Option Operator}
    (sorted : (popped.map (·.2)).Pairwise (· > ·)) :
    (release time displacer popped).Pairwise Emission.Before := by
  rw [release, List.pairwise_map]
  exact (List.pairwise_map.1 sorted).imp fun after => .inr ⟨rfl, after⟩

namespace Reading

/-- What leaves at one position leaves no earlier than that, if what comes after does not. -/
theorem position_le_time_after {emitted : List Emission} {later : Reading}
    (now : ∀ e ∈ emitted, e.time = position)
    (next : ∀ e ∈ later.emissions, position + 1 ≤ e.time) :
    ∀ e ∈ (after emitted later).emissions, position ≤ e.time := by
  intro e member
  rcases List.mem_append.1 member with first | second
  · exact Nat.le_of_eq (now e first).symm
  · exact Nat.le_of_succ_le (next e second)

theorem position_le_time (stack : List Pending) (position : Nat) (rest : List Char) :
    ∀ e ∈ (ofRest stack position rest).emissions, position ≤ e.time := by
  fun_induction ofRest stack position rest with
  | case1 | case2 | case5 =>
    intro e member
    exact Nat.le_of_eq (time_of_mem_release member).symm
  | case3 stack position c rest symbol ih =>
    intro e member
    exact Nat.le_of_succ_le (ih e member)
  | case4 stack position c rest symbol popped emitted opened below popping ih =>
    exact position_le_time_after (fun _ => time_of_mem_release) ih
  | case6 stack position c rest l symbol ih => exact position_le_time_after (by simp) ih
  | case7 stack position c rest op symbol popped below popping ih =>
    exact position_le_time_after (fun _ => time_of_mem_release) ih

/-- What leaves at one position comes before all that leave later. -/
theorem pairwise_after {emitted : List Emission} {rest : List Char}
    (sorted : emitted.Pairwise Emission.Before) (now : ∀ e ∈ emitted, e.time = position)
    (later : (ofRest stack (position + 1) rest).emissions.Pairwise Emission.Before) :
    (after emitted (ofRest stack (position + 1) rest)).emissions.Pairwise Emission.Before := by
  rw [emissions_after, List.pairwise_append]
  refine ⟨sorted, later, ?_⟩
  intro e member f member'
  left
  rw [now e member]
  exact position_le_time _ _ _ f member'

theorem pairwise_emissions {rest : List Char} (h : Descends position stack) :
    (ofRest stack position rest).emissions.Pairwise Emission.Before := by
  fun_induction ofRest stack position rest with
  | case1 stack position popped emitted opened tail popping =>
    exact pairwise_release (h.popWhile popping).1
  | case2 stack position popped below popping emitted closed =>
    exact pairwise_release (h.popWhile popping).1
  | case3 stack position c rest symbol ih => exact ih (h.push rfl)
  | case4 stack position c rest symbol popped emitted opened below popping ih =>
    obtain ⟨sorted, left⟩ := h.popWhile popping
    have outer : Descends position below := left.sublist (by simp)
    exact pairwise_after (pairwise_release sorted) (fun _ => time_of_mem_release) (ih outer.succ)
  | case5 stack position c rest symbol popped below popping emitted closed =>
    exact pairwise_release (h.popWhile popping).1
  | case6 stack position c rest l symbol ih =>
    exact pairwise_after (List.pairwise_singleton _ _) (by simp) (ih h.succ)
  | case7 stack position c rest op symbol popped below popping ih =>
    obtain ⟨sorted, left⟩ := h.popWhile popping
    exact pairwise_after (pairwise_release sorted) (fun _ => time_of_mem_release)
      (ih (left.push rfl))

theorem covered_of_balanced {pattern : List Char}
    (balanced : (ofPattern pattern).unbalanced = none) : ∀ k, 0 ≤ depth pattern k := by
  have balance := balance_ofPattern pattern
  rw [balanced] at balance
  cases balance with
  | balanced covered _ => exact covered

/-- Just what is due leaves. -/
theorem mem_emissions_iff {pattern : List Char} (balanced : (ofPattern pattern).unbalanced = none)
    {e : Emission} : e ∈ (ofPattern pattern).emissions ↔ Due pattern e := by
  have covered := covered_of_balanced balanced
  have due : ∀ e ∈ (ofPattern pattern).emissions, Due pattern e :=
    due_of_mem_emissions covered balanced rfl (Nat.zero_le _) .nil
  refine ⟨due e, ?_⟩
  intro h
  -- The character has left somehow, since nothing is lost, and it is due in one way only.
  obtain ⟨c, found, token, read⟩ := h.exists_char
  have placed : e.placed ∈ tokensAt 0 pattern := by
    rw [Emission.placed, read]
    refine List.mem_map.2 ⟨(c, e.origin), List.mem_filter.2 ⟨?_, token⟩, rfl⟩
    exact List.mk_mem_zipIdx_iff_getElem?.2 found
  have left := (perm_emissions balanced).symm.subset placed
  obtain ⟨f, member, same⟩ := List.mem_map.1 left
  have origin : f.origin = e.origin := congrArg Prod.snd same
  rw [← (due f member).unique covered h origin]
  exact member

end Reading

end WholeMatch.Infix

namespace WholeMatch.Postorder

open Infix

/-- Where a pattern can be read, its tokens leave when they are due: literals at once, operators for
the first weaker operator in their group, or else when the group is complete. Those are all
characters but the parentheses, in the order of their times and, of those that leave together, the
last one first. The journal tells in this order of the operators that left for a weaker one, and of
nothing else but the pattern as a whole. -/
theorem ofPattern_emissions {pattern : String} {p : Postorder}
    (h : (ofPattern pattern).result = .ok p) :
    (∀ e, e ∈ (Reading.ofPattern pattern.toList).emissions ↔ Due pattern.toList e) ∧
    (Reading.ofPattern pattern.toList).emissions.Pairwise Emission.Before ∧
    ((Reading.ofPattern pattern.toList).emissions.map Emission.placed).Perm
      (tokensAt 0 pattern.toList) ∧
    p.tokens = (Reading.ofPattern pattern.toList).emissions.map (·.token) ∧
    (ofPattern pattern).journal =
      ((Reading.ofPattern pattern.toList).emissions.filterMap fun e =>
        e.displacer.map (.displaced · e.token e.time)) ++ [.ordered pattern p] := by
  obtain ⟨balanced, rfl⟩ := result_ofPattern_eq_ok_iff.1 h
  refine ⟨?_, ?_, ?_, rfl, ?_⟩
  · intro e
    exact Reading.mem_emissions_iff balanced
  · exact Reading.pairwise_emissions (List.pairwise_singleton _ _)
  · exact Reading.perm_emissions balanced
  · simp only [ofPattern, balanced]
    rfl

/-- The weaker operator inside the group lets `.` wait, the one behind the group makes it leave. -/
theorem ofPattern_emissions_shielded :
    (ofPattern "a.(b*|c)|d").result = .ok (ofText "ab*c|.d|") ∧
      Due "a.(b*|c)|d".toList ⟨.operator .concat, 1, 8, some .alternate⟩ ∧
      (ofPattern "a.(b*|c)|d").journal =
        [.displaced .alternate (.operator .star) 5, .displaced .alternate (.operator .concat) 8,
          .ordered "a.(b*|c)|d" (ofText "ab*c|.d|")] := by
  have read : (ofPattern "a.(b*|c)|d").result = .ok (ofText "ab*c|.d|") := rfl
  obtain ⟨left, _, _, _, told⟩ := ofPattern_emissions read
  refine ⟨read, (left _).1 ?_, told⟩
  decide

end WholeMatch.Postorder
