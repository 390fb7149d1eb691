import WholeMatch.Proofs.Due

/-!
# What waits on the stack

Before each character, the operators on the stack are those that no weaker operator of their group
has made leave yet, and within a group none of them stands on a stronger one (`Waits`). So the
operators that the next character takes off are all those it makes leave, none is shielded by
another, and whatever leaves is due (`Reading.due_of_mem_emissions`).
-/

namespace WholeMatch.Infix

variable {s u : List Char} {c : Char} {op : Operator} {i k opened position time : Nat}

/-! ### What waits on the stack -/

variable {stack below outer : List Pending} {popped : List (Operator × Nat)}

/-- Why the operator `op` from `i`, with `below` under it, still waits before `position`. -/
structure WaitsAt (s : List Char) (position : Nat) (op : Operator) (i : Nat)
    (below : List Pending) : Prop where
  found : s[i]? = some op.symbol
  lt : i < position
  encloses : ∀ opened, Encloses s opened i ↔ (openGroups below).head? = some opened
  undisturbed : ∀ j < position, ∀ weaker, ¬ Displaces s op weaker i j
  /-- Under it no operator of its group is stronger. -/
  ordered : ∀ {op' i' below'}, .operator op' i' :: below' <:+ below →
    openGroups below' = openGroups below → op'.precedence ≤ op.precedence

/-- The stack before `position`: the groups that are open and the operators that still wait. -/
structure Waits (s : List Char) (position : Nat) (stack : List Pending) : Prop where
  opens : Opens (s.take position) (openGroups stack)
  waits : ∀ {op i below}, .operator op i :: below <:+ stack → WaitsAt s position op i below

theorem not_leaves_of_popWhile {leaves : Operator → Bool}
    (h : popWhile leaves stack = (popped, .operator op i :: below)) : leaves op = false := by
  induction stack generalizing popped with
  | nil => cases h
  | cons top rest ih =>
    cases top with
    | group place => cases h
    | operator op' place =>
      rw [popWhile] at h
      split at h
      next =>
        cases found : popWhile leaves rest with
        | mk popped kept =>
          rw [found] at h
          cases h
          exact ih found
      next stays =>
        cases h
        exact Bool.eq_false_iff.2 stays

/-- What is taken off the stack is taken out of the innermost group. -/
theorem exists_suffix_of_mem_popWhile {leaves : Operator → Bool}
    (h : popWhile leaves stack = (popped, below)) (member : (op, i) ∈ popped) :
    ∃ under, .operator op i :: under <:+ stack ∧ openGroups under = openGroups stack := by
  have parts := popWhile_append leaves stack
  rw [h] at parts
  obtain ⟨before, after, rfl⟩ := List.append_of_mem member
  refine ⟨pending after ++ below, ⟨pending before, ?_⟩, ?_⟩
  · rw [← parts]
    simp [pending]
  · rw [← openGroups_of_popWhile h]
    simp [openGroups, pending, List.filterMap_append]

/-- Lists without repetition that begin alike do not end in one another. -/
theorem eq_of_suffix_of_head?_eq {l l' : List Nat} (suffix : l' <:+ l) (nodup : l.Nodup)
    (heads : l'.head? = l.head?) : l' = l := by
  obtain ⟨front, rfl⟩ := suffix
  cases front with
  | nil => rfl
  | cons x front =>
    have member : x ∈ l' := List.mem_of_head? heads
    rw [List.cons_append, List.nodup_cons] at nodup
    exact absurd (List.mem_append_right front member) nodup.1

theorem openGroups_suffix (h : below <:+ stack) : openGroups below <:+ openGroups stack :=
  h.filterMap _

namespace WaitsAt

theorem succ (h : WaitsAt s position op i below)
    (undisturbed : ∀ weaker, ¬ Displaces s op weaker i position) :
    WaitsAt s (position + 1) op i below where
  found := h.found
  lt := Nat.lt_succ_of_lt h.lt
  encloses := h.encloses
  undisturbed j lt weaker := by
    rcases Nat.lt_succ_iff_lt_or_eq.1 lt with before | rfl
    · exact h.undisturbed j before weaker
    · exact undisturbed weaker
  ordered := h.ordered

/-- Only an operator disturbs. -/
theorem succ_of_ne (h : WaitsAt s position op i below)
    (ne : ∀ op : Operator, s[position]? ≠ some op.symbol) : WaitsAt s (position + 1) op i below :=
  h.succ fun weaker displaces => ne weaker displaces.2.1

end WaitsAt

namespace Waits

theorem nil : Waits s 0 [] where
  opens := .nil
  waits h := by simp at h

/-- An operator waits in the group of the next character where no group stands above it. -/
theorem sameGroup_iff (h : Waits s position stack) (entry : .operator op i :: below <:+ stack) :
    SameGroup s i position ↔ openGroups below = openGroups stack := by
  have suffix : openGroups below <:+ openGroups stack :=
    openGroups_suffix ((List.suffix_cons _ _).trans entry)
  have nodup : (openGroups stack).Nodup := h.opens.sorted.imp Nat.ne_of_gt
  have around (opened : Nat) :
      Encloses s opened position ↔ (openGroups stack).head? = some opened :=
    h.opens.isGreatest_iff
  constructor
  · intro same
    apply eq_of_suffix_of_head?_eq suffix nodup
    apply Option.ext
    intro opened
    rw [← (h.waits entry).encloses, ← around]
    exact same opened
  · intro same opened
    rw [(h.waits entry).encloses, around, same]

/-- What stays on the stack in the innermost group is no stronger than the operator that comes. -/
theorem precedence_le_of_popWhile (h : Waits s position stack) {next : Operator}
    (popping : popWhile (fun top => next.precedence < top.precedence) stack = (popped, outer))
    (entry : .operator op i :: below <:+ outer) (same : openGroups below = openGroups outer) :
    op.precedence ≤ next.precedence := by
  have kept := suffix_of_popWhile popping
  -- The top has refused to leave, and what waits under it in its group is ordered already.
  cases outer with
  | nil => cases List.suffix_nil.1 entry
  | cons top outer =>
    cases top with
    | group opened =>
      rcases List.suffix_cons_iff.1 entry with first | entry
      · cases first
      · have shorter := (openGroups_suffix ((List.suffix_cons _ _).trans entry)).length_le
        rw [same] at shorter
        exact absurd shorter (Nat.not_succ_le_self _)
    | operator top place =>
      have stays := not_leaves_of_popWhile popping
      have weaker : top.precedence ≤ next.precedence := Nat.not_lt.1 (of_decide_eq_false stays)
      rcases List.suffix_cons_iff.1 entry with first | entry
      · cases first
        exact weaker
      · exact Nat.le_trans ((h.waits kept).ordered entry same) weaker

theorem opening (h : Waits s position stack) (found : s[position]? = some '(') :
    Waits s (position + 1) (.group position :: stack) where
  opens := by
    have opens := h.opens.opening
    rwa [length_take_of_found found, ← take_succ_of_found found] at opens
  waits entry := by
    rcases List.suffix_cons_iff.1 entry with first | entry
    · cases first
    · apply (h.waits entry).succ_of_ne
      intro op
      rw [found]
      cases op <;> decide

theorem closing (h : Waits s position stack) (found : s[position]? = some ')')
    (popping : popWhile (fun _ => true) stack = (popped, .group opened :: below)) :
    Waits s (position + 1) below where
  opens := by
    have opens := h.opens
    rw [← openGroups_of_popWhile popping] at opens
    rw [take_succ_of_found found]
    exact opens.closing
  waits entry := by
    have kept := suffix_of_popWhile popping
    apply (h.waits (entry.trans ((List.suffix_cons _ _).trans kept))).succ_of_ne
    intro op
    rw [found]
    cases op <;> decide

theorem literal {c : Char} (h : Waits s position stack) (found : s[position]? = some c)
    (plain : IsLiteral c) : Waits s (position + 1) stack where
  opens := by
    rw [take_succ_of_found found]
    exact h.opens.token (hasToken_of_isLiteral plain)
  waits entry := by
    apply (h.waits entry).succ_of_ne
    intro op same
    rw [found, Option.some.injEq] at same
    subst same
    exact not_isLiteral_symbol op plain

theorem operator {next : Operator} (h : Waits s position stack)
    (found : s[position]? = some next.symbol)
    (popping : popWhile (fun top => next.precedence < top.precedence) stack = (popped, below)) :
    Waits s (position + 1) (.operator next position :: below) where
  opens := by
    rw [take_succ_of_found found]
    have opens := h.opens.token (hasToken_symbol next)
    rwa [← openGroups_of_popWhile popping] at opens
  waits {op i under} entry := by
    rcases List.suffix_cons_iff.1 entry with first | entry
    · cases first
      refine ⟨found, Nat.lt_succ_self _, ?_, ?_, ?_⟩
      · intro opened
        rw [openGroups_of_popWhile popping]
        exact h.opens.isGreatest_iff
      · intro j lt weaker displaces
        exact absurd displaces.1 (Nat.not_lt.2 (Nat.le_of_lt_succ lt))
      · intro _ _ _ entry same
        exact h.precedence_le_of_popWhile popping entry same
    · have kept := entry.trans (suffix_of_popWhile popping)
      -- An operator of this group that `next` could displace would have left.
      apply (h.waits kept).succ
      rintro weaker ⟨_, symbol, stronger, group⟩
      rw [found, Option.some.injEq] at symbol
      obtain rfl := Operator.symbol_injective symbol
      have same := (h.sameGroup_iff kept).1 group
      rw [← openGroups_of_popWhile popping] at same
      exact Nat.not_lt.2 (h.precedence_le_of_popWhile popping entry same) stronger

/-! ### What leaves is due -/

theorem due_displaced {next : Operator} (h : Waits s position stack)
    (found : s[position]? = some next.symbol)
    (popping : popWhile (fun top => next.precedence < top.precedence) stack = (popped, below))
    (member : (op, i) ∈ popped) : Due s ⟨.operator op, i, position, some next⟩ := by
  obtain ⟨under, entry, same⟩ := exists_suffix_of_mem_popWhile popping member
  have stronger : next.precedence < op.precedence := by
    have leaves : (op, i) ∈ (popWhile (fun top => next.precedence < top.precedence) stack).1 := by
      rw [popping]
      exact member
    exact of_decide_eq_true (leaves_of_mem_popWhile leaves)
  have waits := h.waits entry
  refine .displaced waits.found ⟨⟨next, waits.lt, found, stronger, ?_⟩, ?_⟩ found
  · exact (h.sameGroup_iff entry).2 same
  · rintro j ⟨weaker, displaces⟩
    exact Nat.not_lt.1 fun before => waits.undisturbed j before weaker displaces

theorem due_closing (covered : ∀ k, 0 ≤ depth s k) (h : Waits s position stack)
    (found : s[position]? = some ')')
    (popping : popWhile (fun _ => true) stack = (popped, .group opened :: below))
    (member : (op, i) ∈ popped) : Due s ⟨.operator op, i, position, none⟩ := by
  obtain ⟨under, entry, same⟩ := exists_suffix_of_mem_popWhile popping member
  have waits := h.waits entry
  have top : (openGroups stack).head? = some opened := by
    rw [← openGroups_of_popWhile popping]
    rfl
  have around : Encloses s opened i := (waits.encloses opened).2 (same ▸ top)
  have inside : Encloses s opened position := h.opens.isGreatest_iff.2 top
  refine .completed waits.found ?_ (.inl ⟨opened, around, inside, found⟩)
  -- Before the `)` nothing has displaced the operator, and behind it the group is no longer open.
  rintro j weaker displaces
  rcases Nat.lt_trichotomy j position with before | rfl | after
  · exact waits.undisturbed j before weaker displaces
  · have symbol := displaces.2.1
    rw [found, Option.some.injEq] at symbol
    cases weaker <;> exact absurd symbol (by decide)
  · have later : Encloses s opened j := (displaces.2.2.2 opened).1 around
    exact not_encloses_of_closing covered inside found after later

theorem due_end (h : Waits s s.length stack)
    (popping : popWhile (fun _ => true) stack = (popped, []))
    (member : (op, i) ∈ popped) : Due s ⟨.operator op, i, s.length, none⟩ := by
  obtain ⟨under, entry, same⟩ := exists_suffix_of_mem_popWhile popping member
  have waits := h.waits entry
  refine .completed waits.found ?_ (.inr ⟨?_, rfl⟩)
  · intro j weaker displaces
    have before := (List.getElem?_eq_some_iff.1 displaces.2.1).1
    exact waits.undisturbed j before weaker displaces
  · intro opened around
    have top := (waits.encloses opened).1 around
    rw [same, ← openGroups_of_popWhile popping] at top
    cases top

end Waits

theorem mem_release {displacer : Option Operator} {e : Emission}
    (member : e ∈ release time displacer popped) :
    ∃ op i, (op, i) ∈ popped ∧ e = ⟨.operator op, i, time, displacer⟩ := by
  obtain ⟨⟨op, i⟩, listed, rfl⟩ := List.mem_map.1 member
  exact ⟨op, i, listed, rfl⟩

theorem drop_succ {rest : List Char} (h : u.drop k = c :: rest) :
    u[k]? = some c ∧ u.drop (k + 1) = rest ∧ k + 1 ≤ u.length := by
  have found : u[k]? = some c := by rw [← List.head?_drop, h, List.head?_cons]
  refine ⟨found, ?_, (List.getElem?_eq_some_iff.1 found).1⟩
  rw [← List.tail_drop, h, List.tail_cons]

namespace Reading

/-- Whatever leaves is due. -/
theorem due_of_mem_emissions (covered : ∀ k, 0 ≤ depth s k) {rest : List Char}
    (balanced : (ofRest stack position rest).unbalanced = none) (ahead : s.drop position = rest)
    (le : position ≤ s.length) (h : Waits s position stack) :
    ∀ e ∈ (ofRest stack position rest).emissions, Due s e := by
  fun_induction ofRest stack position rest with
  | case1 => cases balanced
  | case2 stack position popped below popping emitted closed =>
    obtain rfl := eq_nil_of_popWhile_all popping closed
    obtain rfl : position = s.length := Nat.le_antisymm le (List.drop_eq_nil_iff.1 ahead)
    intro e member
    obtain ⟨op, i, listed, rfl⟩ := mem_release member
    exact h.due_end popping listed
  | case3 stack position c rest symbol ih =>
    obtain rfl := Symbol.ofChar_eq_opening_iff.1 symbol
    obtain ⟨found, ahead, le⟩ := drop_succ ahead
    exact ih balanced ahead le (h.opening found)
  | case4 stack position c rest symbol popped emitted opened below popping ih =>
    obtain rfl := Symbol.ofChar_eq_closing_iff.1 symbol
    obtain ⟨found, ahead, le⟩ := drop_succ ahead
    intro e member
    rcases List.mem_append.1 member with now | later
    · obtain ⟨op, i, listed, rfl⟩ := mem_release now
      exact h.due_closing covered found popping listed
    · exact ih balanced ahead le (h.closing found popping) e later
  | case5 => cases balanced
  | case6 stack position c rest l symbol ih =>
    obtain ⟨plain, rfl⟩ := Symbol.ofChar_eq_literal_iff.1 symbol
    obtain ⟨found, ahead, le⟩ := drop_succ ahead
    intro e member
    rcases List.mem_cons.1 member with rfl | later
    · exact .literal found plain
    · exact ih balanced ahead le (h.literal found plain) e later
  | case7 stack position c rest op symbol popped below popping ih =>
    obtain rfl := Symbol.ofChar_eq_operator_iff.1 symbol
    obtain ⟨found, ahead, le⟩ := drop_succ ahead
    intro e member
    rcases List.mem_append.1 member with now | later
    · obtain ⟨op', i, listed, rfl⟩ := mem_release now
      exact h.due_displaced found popping listed
    · exact ih balanced ahead le (h.operator found popping) e later

end Reading

end WholeMatch.Infix
