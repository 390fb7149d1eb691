import Mathlib.Order.Bounds.Basic
import Mathlib.Order.Nat
import Mathlib.Algebra.Order.Ring.Int
import WholeMatch.Proofs.Conservation

/-!
# Parentheses without partner

Of the stack, only the open groups decide whether a pattern can be read: operators come and go
between them. After a piece of a pattern they are the `(` from which on the depth stays above what
it was, each of them opened at the depth that those around it make (`Opens`). So what is reported
can be told from the depths alone (`Balance`): the first `)` below depth zero, or else the last `(`
that is never closed.
-/

namespace WholeMatch.Infix

/-! ### Depth -/

/-- How many more groups the first `k` characters open than close. -/
def depth (s : List Char) (k : Nat) : Int :=
  (s.take k).count '(' - ((s.take k).count ')' : Int)

/-- The `(` at `i` is never closed: from there on the depth stays above what it was. -/
def IsUnclosed (s : List Char) (i : Nat) : Prop :=
  s[i]? = some '(' ∧ ∀ k, i < k → depth s i < depth s k

variable {u : List Char} {c : Char} {groups outer : List Nat} {i k opened : Nat}

theorem depth_append_of_le (le : k ≤ u.length) (v : List Char) : depth (u ++ v) k = depth u k := by
  rw [depth, depth, List.take_append_of_le_length le]

theorem depth_of_length_le (le : u.length ≤ k) : depth u k = depth u u.length := by
  rw [depth, depth, List.take_of_length_le le, List.take_length]

/-- The last character decides by how much the depth differs at the end. -/
theorem depth_append_of_lt (lt : u.length < k) (c : Char) :
    depth (u ++ [c]) k = depth u u.length + depth [c] 1 := by
  have all : (u ++ [c]).take k = u ++ [c] := by
    rw [List.take_of_length_le]
    rw [List.length_append, List.length_singleton]
    omega
  rw [depth, depth, depth, all, List.take_length, List.count_append, List.count_append]
  simp only [List.take_succ_cons, List.take_zero]
  omega

theorem depth_length_append (u : List Char) (c : Char) :
    depth (u ++ [c]) (u ++ [c]).length = depth u u.length + depth [c] 1 := by
  rw [depth_append_of_lt]
  simp

theorem depth_opening : depth ['('] 1 = 1 := rfl

theorem depth_closing : depth [')'] 1 = -1 := rfl

theorem depth_token (token : hasToken c = true) : depth [c] 1 = 0 := by
  simp only [hasToken, Bool.and_eq_true, bne_iff_ne] at token
  simp [depth, token.1, token.2]

/-- Behind the end the depth does not change. -/
theorem forall_depth_nonneg_iff : (∀ k, 0 ≤ depth u k) ↔ ∀ k ≤ u.length, 0 ≤ depth u k := by
  constructor
  · intro covered k _
    exact covered k
  · intro covered k
    by_cases le : k ≤ u.length
    · exact covered k le
    · rw [depth_of_length_le (Nat.le_of_not_le le)]
      exact covered u.length (Nat.le_refl _)

theorem IsUnclosed.lt_length (h : IsUnclosed u i) : i < u.length :=
  (List.getElem?_eq_some_iff.1 h.1).1

theorem isUnclosed_append_length : IsUnclosed (u ++ [c]) u.length ↔ c = '(' := by
  rw [IsUnclosed, List.getElem?_concat_length, Option.some.injEq]
  refine and_iff_left_of_imp ?_
  rintro rfl k after
  rw [depth_append_of_lt after, depth_append_of_le (Nat.le_refl _), depth_opening]
  exact Int.lt_add_one_of_le (Int.le_refl _)

/-- A group stays open as long as the depth does not fall back to what it was before. -/
theorem isUnclosed_append_of_lt (lt : i < u.length) :
    IsUnclosed (u ++ [c]) i ↔ IsUnclosed u i ∧ depth u i < depth u u.length + depth [c] 1 := by
  rw [IsUnclosed, IsUnclosed, List.getElem?_append_left lt, depth_append_of_le (Nat.le_of_lt lt),
    and_assoc]
  refine and_congr_right fun _ => ⟨fun stays => ⟨?_, ?_⟩, ?_⟩
  · intro k after
    by_cases le : k ≤ u.length
    · rw [← depth_append_of_le le [c]]
      exact stays k after
    · rw [depth_of_length_le (Nat.le_of_not_le le), ← depth_append_of_le (Nat.le_refl _) [c]]
      exact stays u.length lt
  · have last := stays (u.length + 1) (Nat.lt_succ_of_lt lt)
    rwa [depth_append_of_lt (Nat.lt_succ_self _)] at last
  · rintro ⟨stays, last⟩ k after
    by_cases le : k ≤ u.length
    · rw [depth_append_of_le le]
      exact stays k after
    · rw [depth_append_of_lt (Nat.lt_of_not_le le)]
      exact last

theorem isUnclosed_append_iff :
    IsUnclosed (u ++ [c]) i ↔
      (IsUnclosed u i ∧ depth u i < depth u u.length + depth [c] 1) ∨
        (i = u.length ∧ c = '(') := by
  constructor
  · intro h
    have lt := h.lt_length
    rw [List.length_append, List.length_singleton] at lt
    rcases Nat.lt_succ_iff_lt_or_eq.1 lt with before | rfl
    · exact .inl ((isUnclosed_append_of_lt before).1 h)
    · exact .inr ⟨rfl, isUnclosed_append_length.1 h⟩
  · rintro (⟨h, stays⟩ | ⟨rfl, opening⟩)
    · exact (isUnclosed_append_of_lt h.lt_length).2 ⟨h, stays⟩
    · exact isUnclosed_append_length.2 opening

/-! ### Open groups -/

/-- After `u` just these groups are open, the last one first. -/
structure Opens (u : List Char) (groups : List Nat) : Prop where
  covered : ∀ k, 0 ≤ depth u k
  mem_iff : ∀ i, i ∈ groups ↔ IsUnclosed u i
  sorted : groups.Pairwise (· > ·)
  /-- Each group was opened at the depth that the groups around it make. -/
  depths : groups.map (depth u) = (List.range groups.length).reverse.map Nat.cast
  depth_eq : depth u u.length = groups.length

namespace Opens

theorem nil : Opens [] [] where
  covered k := by simp [depth]
  mem_iff i := by simp [IsUnclosed]
  sorted := .nil
  depths := rfl
  depth_eq := rfl

theorem lt_length (h : Opens u groups) (member : i ∈ groups) : i < u.length :=
  ((h.mem_iff i).1 member).lt_length

theorem covered_append (h : Opens u groups) (stays : 0 ≤ depth u u.length + depth [c] 1) (k : Nat) :
    0 ≤ depth (u ++ [c]) k := by
  by_cases le : k ≤ u.length
  · rw [depth_append_of_le le]
    exact h.covered k
  · rw [depth_append_of_lt (Nat.lt_of_not_le le)]
    exact stays

/-- The groups that were opened in `u` keep their depths. -/
theorem map_depth_append (h : Opens u groups) (c : Char) :
    groups.map (depth (u ++ [c])) = groups.map (depth u) :=
  List.map_congr_left fun _ member => depth_append_of_le (Nat.le_of_lt (h.lt_length member)) [c]

theorem token (h : Opens u groups) (token : hasToken c = true) : Opens (u ++ [c]) groups where
  covered := h.covered_append (by rw [depth_token token, Int.add_zero]; exact h.covered _)
  mem_iff i := by
    have ne : c ≠ '(' := by
      rintro rfl
      exact absurd token (by decide)
    rw [h.mem_iff, isUnclosed_append_iff, depth_token token, Int.add_zero]
    simp only [ne, and_false, or_false]
    exact (and_iff_left_of_imp fun unclosed => unclosed.2 _ unclosed.lt_length).symm
  sorted := h.sorted
  depths := by rw [h.map_depth_append, h.depths]
  depth_eq := by rw [depth_length_append, depth_token token, h.depth_eq, Int.add_zero]

theorem opening (h : Opens u groups) : Opens (u ++ ['(']) (u.length :: groups) where
  covered := h.covered_append (by rw [depth_opening]; exact Int.le_add_one (h.covered _))
  mem_iff i := by
    rw [List.mem_cons, h.mem_iff, isUnclosed_append_iff, depth_opening, or_comm]
    have rises (unclosed : IsUnclosed u i) : depth u i < depth u u.length + 1 :=
      Int.lt_trans (unclosed.2 _ unclosed.lt_length) (Int.lt_succ _)
    simp only [and_true, and_iff_left_of_imp rises]
  sorted := .cons (fun _ member => h.lt_length member) h.sorted
  depths := by
    rw [List.map_cons, h.map_depth_append, h.depths, List.length_cons, List.range_succ,
      List.reverse_append, depth_append_of_le (Nat.le_refl _), h.depth_eq]
    rfl
  depth_eq := by
    rw [depth_length_append, depth_opening, h.depth_eq, List.length_cons, Int.natCast_succ]

/-- The group on top was opened where only the others were open. -/
theorem depth_head (h : Opens u (opened :: outer)) :
    depth u opened = outer.length ∧
      outer.map (depth u) = (List.range outer.length).reverse.map Nat.cast := by
  have depths := h.depths
  rw [List.map_cons, List.length_cons, List.range_succ, List.reverse_append] at depths
  simpa using depths

theorem closing (h : Opens u (opened :: outer)) : Opens (u ++ [')']) outer where
  covered := h.covered_append (by rw [h.depth_eq, List.length_cons, depth_closing]; omega)
  mem_iff i := by
    rw [isUnclosed_append_iff, ← h.mem_iff, h.depth_eq, List.length_cons, depth_closing]
    have top := h.depth_head.1
    have below (member : i ∈ outer) : depth u i < outer.length := by
      rw [← top]
      have inner := List.rel_of_pairwise_cons h.sorted member
      exact ((h.mem_iff i).1 (List.mem_cons_of_mem _ member)).2 opened inner
    constructor
    · intro member
      have := below member
      exact .inl ⟨List.mem_cons_of_mem _ member, by omega⟩
    · rintro (⟨member, stays⟩ | ⟨_, impossible⟩)
      · rcases List.mem_cons.1 member with rfl | member
        · omega
        · exact member
      · exact absurd impossible (by decide)
  sorted := h.sorted.of_cons
  depths := by
    rw [← h.depth_head.2]
    exact List.map_congr_left fun _ member =>
      depth_append_of_le (Nat.le_of_lt (h.lt_length (List.mem_cons_of_mem _ member))) [')']
  depth_eq := by
    rw [depth_length_append, h.depth_eq, List.length_cons, depth_closing]
    omega

/-- The group on top is the last one that is open. -/
theorem isGreatest_iff (h : Opens u groups) {i : Nat} :
    IsGreatest {k | IsUnclosed u k} i ↔ groups.head? = some i := by
  have members : {k | IsUnclosed u k} = {k | k ∈ groups} := by
    ext k
    exact (h.mem_iff k).symm
  rw [members]
  cases groups with
  | nil => simp [IsGreatest]
  | cons opened outer =>
    have top : IsGreatest {k | k ∈ opened :: outer} opened := by
      refine ⟨List.mem_cons_self, ?_⟩
      intro k member
      rcases List.mem_cons.1 member with rfl | inner
      · exact Nat.le_refl _
      · exact Nat.le_of_lt (List.rel_of_pairwise_cons h.sorted inner)
    rw [List.head?_cons, Option.some.injEq]
    refine ⟨top.unique, ?_⟩
    rintro rfl
    exact top

/-- Where no group is open, a `)` is the first to close too many. -/
theorem isLeast_closing (h : Opens u []) {position : Nat} (length : u.length = position)
    (rest : List Char) : IsLeast {k | depth (u ++ ')' :: rest) (k + 1) < 0} position := by
  subst length
  constructor
  · show depth (u ++ ')' :: rest) (u.length + 1) < 0
    rw [List.append_cons, depth_append_of_le (by simp), depth_append_of_lt (Nat.lt_succ_self _),
      h.depth_eq]
    decide
  · intro k negative
    have negative : depth (u ++ ')' :: rest) (k + 1) < 0 := negative
    by_contra before
    rw [depth_append_of_le (by omega)] at negative
    exact absurd negative (Int.not_lt.2 (h.covered (k + 1)))

end Opens

/-! ### The groups on the stack -/

variable {stack below : List Pending} {popped : List (Operator × Nat)}

/-- The groups on the stack, the last one first. -/
def openGroups (stack : List Pending) : List Nat :=
  stack.filterMap fun
    | .group opened => some opened
    | .operator _ _ => none

/-- Only operators are taken off the stack. -/
theorem openGroups_of_popWhile {leaves : Operator → Bool}
    (h : popWhile leaves stack = (popped, below)) : openGroups below = openGroups stack := by
  have parts := popWhile_append leaves stack
  rw [h] at parts
  rw [← parts, openGroups, openGroups, List.filterMap_append, List.filterMap_map]
  simp

/-! ### What is reported -/

/-- How a pattern can be balanced or not, and what is reported of it. -/
inductive Balance (s : List Char) : Option Nat → Prop where
  /-- A `)` closes more groups than have been opened before it. -/
  | overclosed {i : Nat} (closing : s[i]? = some ')')
      (first : IsLeast {k | depth s (k + 1) < 0} i) : Balance s (some i)
  /-- A group is left open. -/
  | unclosed {i : Nat} (covered : ∀ k, 0 ≤ depth s k)
      (last : IsGreatest {k | IsUnclosed s k} i) : Balance s (some i)
  | balanced (covered : ∀ k, 0 ≤ depth s k) (closed : depth s s.length = 0) : Balance s none

namespace Balance

variable {s : List Char} {reported : Option Nat}

theorem eq_of_overclosed (h : Balance s reported) (first : IsLeast {k | depth s (k + 1) < 0} i) :
    s[i]? = some ')' ∧ reported = some i := by
  have not_covered : ¬ ∀ k, 0 ≤ depth s k := fun covered =>
    absurd first.1 (Int.not_lt.2 (covered (i + 1)))
  cases h with
  | overclosed closing first' =>
    obtain rfl := first.unique first'
    exact ⟨closing, rfl⟩
  | unclosed covered _ => exact absurd covered not_covered
  | balanced covered _ => exact absurd covered not_covered

theorem exists_of_unclosed (h : Balance s reported) (covered : ∀ k, 0 ≤ depth s k)
    (left : 0 < depth s s.length) : ∃ i, IsGreatest {k | IsUnclosed s k} i ∧ reported = some i := by
  cases h with
  | @overclosed i _ first => exact absurd first.1 (Int.not_lt.2 (covered (i + 1)))
  | unclosed _ last => exact ⟨_, last, rfl⟩
  | balanced _ closed => omega

/-- What is reported is a parenthesis. -/
theorem getElem?_eq_paren (h : Balance s (some i)) : s[i]? = some '(' ∨ s[i]? = some ')' := by
  cases h with
  | overclosed closing _ => exact .inr closing
  | unclosed _ last => exact .inl last.1.1

theorem eq_none_of_closed (h : Balance s reported) (covered : ∀ k, 0 ≤ depth s k)
    (closed : depth s s.length = 0) : reported = none := by
  cases h with
  | @overclosed i _ first => exact absurd first.1 (Int.not_lt.2 (covered (i + 1)))
  | @unclosed i _ last =>
    have stays := last.1.2 s.length last.1.lt_length
    have := covered i
    omega
  | balanced _ _ => rfl

end Balance

theorem length_append_singleton {position : Nat} (length : u.length = position) (c : Char) :
    (u ++ [c]).length = position + 1 := by
  rw [List.length_append, List.length_singleton, length]

/-- A pattern is reported as it is balanced, whatever operators wait. -/
theorem Reading.balance_ofRest (stack : List Pending) (position : Nat) (rest : List Char) :
    ∀ u : List Char, u.length = position → Opens u (openGroups stack) →
      Balance (u ++ rest) (ofRest stack position rest).unbalanced := by
  fun_induction ofRest stack position rest with
  | case1 stack position popped emitted opened tail popping =>
    intro u length opens
    rw [← openGroups_of_popWhile popping] at opens
    rw [List.append_nil]
    exact .unclosed opens.covered (opens.isGreatest_iff.2 rfl)
  | case2 stack position popped below popping emitted closed =>
    intro u length opens
    obtain rfl := eq_nil_of_popWhile_all popping closed
    rw [← openGroups_of_popWhile popping] at opens
    rw [List.append_nil]
    exact .balanced opens.covered opens.depth_eq
  | case3 stack position c rest symbol ih =>
    intro u length opens
    obtain rfl := Symbol.ofChar_eq_opening_iff.1 symbol
    rw [List.append_cons]
    apply ih _ (length_append_singleton length _)
    rw [← length]
    exact opens.opening
  | case4 stack position c rest symbol popped emitted opened below popping ih =>
    intro u length opens
    obtain rfl := Symbol.ofChar_eq_closing_iff.1 symbol
    rw [← openGroups_of_popWhile popping] at opens
    rw [List.append_cons]
    exact ih _ (length_append_singleton length _) opens.closing
  | case5 stack position c rest symbol popped below popping emitted closed =>
    intro u length opens
    obtain rfl := Symbol.ofChar_eq_closing_iff.1 symbol
    obtain rfl := eq_nil_of_popWhile_all popping closed
    rw [← openGroups_of_popWhile popping] at opens
    exact .overclosed (by simp [← length]) (opens.isLeast_closing length rest)
  | case6 stack position c rest l symbol ih =>
    intro u length opens
    obtain ⟨plain, rfl⟩ := Symbol.ofChar_eq_literal_iff.1 symbol
    rw [List.append_cons]
    exact ih _ (length_append_singleton length _) (opens.token (hasToken_of_isLiteral plain))
  | case7 stack position c rest op symbol popped below popping ih =>
    intro u length opens
    obtain rfl := Symbol.ofChar_eq_operator_iff.1 symbol
    rw [← openGroups_of_popWhile popping] at opens
    rw [List.append_cons]
    exact ih _ (length_append_singleton length _) (opens.token (hasToken_symbol op))

theorem Reading.balance_ofPattern (pattern : List Char) :
    Balance pattern (ofPattern pattern).unbalanced :=
  balance_ofRest [] 0 pattern [] rfl .nil

end WholeMatch.Infix

namespace WholeMatch.Postorder

open Infix

/-- A pattern is put into post-order unless a parenthesis has no partner. The first `)` that closes
more groups than are open is reported, whatever follows it; if there is none, the last `(` that is
left open. -/
theorem ofPattern_outcome (pattern : String) :
    (∀ i, IsLeast {k | depth pattern.toList (k + 1) < 0} i →
      pattern.toList[i]? = some ')' ∧ (ofPattern pattern).result = .error (.unbalancedParen i)) ∧
    ((∀ k, 0 ≤ depth pattern.toList k) → 0 < depth pattern.toList pattern.toList.length →
      ∃ i, IsGreatest {k | IsUnclosed pattern.toList k} i ∧
        (ofPattern pattern).result = .error (.unbalancedParen i)) ∧
    ((∀ k, 0 ≤ depth pattern.toList k) → depth pattern.toList pattern.toList.length = 0 →
      ∃ p, (ofPattern pattern).result = .ok p) ∧
    ∀ e, (ofPattern pattern).result = .error e → ∃ i, e = .unbalancedParen i := by
  have balance := Reading.balance_ofPattern pattern.toList
  refine ⟨?_, ?_, ?_, ?_⟩
  · intro i first
    obtain ⟨closing, reported⟩ := balance.eq_of_overclosed first
    exact ⟨closing, result_ofPattern_eq_error_iff.2 ⟨i, reported, rfl⟩⟩
  · intro covered left
    obtain ⟨i, last, reported⟩ := balance.exists_of_unclosed covered left
    exact ⟨i, last, result_ofPattern_eq_error_iff.2 ⟨i, reported, rfl⟩⟩
  · intro covered closed
    exact ⟨_, result_ofPattern_eq_ok_iff.2 ⟨balance.eq_none_of_closed covered closed, rfl⟩⟩
  · intro e failed
    obtain ⟨i, _, same⟩ := result_ofPattern_eq_error_iff.1 failed
    exact ⟨i, same⟩

/-- A `)` too many is reported where a `(` is left open later; without it, the last `(` that is left
open, not the last one read. -/
theorem ofPattern_outcome_both_faults :
    IsLeast {k | depth "a)(".toList (k + 1) < 0} 1 ∧
      "a)(".toList[1]? = some ')' ∧ (ofPattern "a)(").result = .error (.unbalancedParen 1) ∧
      (∀ k, 0 ≤ depth "((|(.)".toList k) ∧ 0 < depth "((|(.)".toList "((|(.)".toList.length ∧
      ∃ i, IsGreatest {k | IsUnclosed "((|(.)".toList k} i ∧
        (ofPattern "((|(.)").result = .error (.unbalancedParen i) := by
  have first : IsLeast {k | depth "a)(".toList (k + 1) < 0} 1 := by
    refine ⟨by decide, ?_⟩
    rintro (_ | k) negative
    · exact absurd negative (by decide)
    · exact Nat.le_add_left 1 k
  have covered : ∀ k, 0 ≤ depth "((|(.)".toList k := forall_depth_nonneg_iff.2 (by decide)
  have left : 0 < depth "((|(.)".toList "((|(.)".toList.length := by decide
  obtain ⟨closing, reported⟩ := (ofPattern_outcome "a)(").1 1 first
  exact ⟨first, closing, reported, covered, left, (ofPattern_outcome "((|(.)").2.1 covered left⟩

example : (ofPattern "((|(.)").result = .error (.unbalancedParen 1) := rfl

end WholeMatch.Postorder
