import Mathlib.Data.List.Induction
import WholeMatch.Proofs.Parentheses

/-!
# When tokens are due

When a character leaves as a token can be told from the pattern alone. A literal leaves at once. An
operator leaves for the first weaker operator that stands directly inside the same group, and where
there is none, when the group is complete (`Due`). In a pattern without a `)` too many each group
has at most one `)` that closes it, so every character is due once (`Due.unique`).
-/

namespace WholeMatch.Infix

variable {s u : List Char} {c : Char} {op : Operator} {i j k opened time : Nat}

/-! ### Groups around a character -/

/-- The innermost group that is open before the character at `i` was opened at `opened`. -/
def Encloses (s : List Char) (opened i : Nat) : Prop :=
  IsGreatest {k | IsUnclosed (s.take i) k} opened

/-- Two characters stand directly inside the same group, or both in none. -/
def SameGroup (s : List Char) (i j : Nat) : Prop :=
  ∀ opened, Encloses s opened i ↔ Encloses s opened j

theorem depth_take (s : List Char) (j k : Nat) : depth (s.take j) k = depth s (min k j) := by
  rw [depth, depth, List.take_take]

/-- A group that is open somewhere has been open since its `(`. -/
theorem IsUnclosed.take (h : IsUnclosed u i) (lt : i < k) : IsUnclosed (u.take k) i := by
  refine ⟨?_, ?_⟩
  · rw [List.getElem?_take_of_lt lt]
    exact h.1
  · intro j after
    rw [depth_take, depth_take, Nat.min_eq_left (Nat.le_of_lt lt)]
    exact h.2 _ (Nat.lt_min.2 ⟨after, lt⟩)

/-- Where no `)` is too many there is a list of the open groups. -/
theorem exists_opens (covered : ∀ k, 0 ≤ depth u k) : ∃ groups, Opens u groups := by
  induction u using List.reverseRecOn with
  | nil => exact ⟨[], .nil⟩
  | append_singleton u c ih =>
    have before : ∀ k ≤ u.length, 0 ≤ depth u k := by
      intro k le
      rw [← depth_append_of_le le [c]]
      exact covered k
    obtain ⟨groups, opens⟩ := ih (forall_depth_nonneg_iff.2 before)
    by_cases opening : c = '('
    · subst opening
      exact ⟨_, opens.opening⟩
    by_cases closing : c = ')'
    · subst closing
      have stays := covered (u ++ [')']).length
      rw [depth_length_append, opens.depth_eq, depth_closing] at stays
      cases groups with
      | nil => exact absurd stays (by decide)
      | cons opened outer => exact ⟨outer, opens.closing⟩
    · exact ⟨groups, opens.token (by simp [hasToken, opening, closing])⟩

theorem take_succ_of_found (found : u[k]? = some c) : u.take (k + 1) = u.take k ++ [c] := by
  rw [List.take_add_one, found, Option.toList_some]

theorem length_take_of_found (found : u[k]? = some c) : (u.take k).length = k := by
  rw [List.length_take, Nat.min_eq_left (Nat.le_of_lt (List.getElem?_eq_some_iff.1 found).1)]

/-- A `)` closes the innermost group. -/
theorem not_isUnclosed_of_closing (covered : ∀ k, 0 ≤ depth s k) (inside : Encloses s opened k)
    (closing : s[k]? = some ')') : ¬ IsUnclosed (s.take (k + 1)) opened := by
  have before : ∀ j, 0 ≤ depth (s.take k) j := by
    intro j
    rw [depth_take]
    exact covered _
  obtain ⟨groups, opens⟩ := exists_opens before
  have top := opens.isGreatest_iff.1 inside
  obtain ⟨outer, rfl⟩ := List.head?_eq_some_iff.1 top
  rw [take_succ_of_found closing, ← opens.closing.mem_iff]
  intro member
  exact Nat.lt_irrefl _ (List.rel_of_pairwise_cons opens.sorted member)

/-- Before `(` comes nothing it encloses. -/
theorem Encloses.lt (h : Encloses s opened i) : opened < i := by
  have lt := IsUnclosed.lt_length h.1
  rw [List.length_take] at lt
  omega

/-- After its `)`, a group encloses nothing. -/
theorem not_encloses_of_closing (covered : ∀ k, 0 ≤ depth s k) (inside : Encloses s opened k)
    (closing : s[k]? = some ')') (after : k < i) : ¬ Encloses s opened i := by
  intro later
  apply not_isUnclosed_of_closing covered inside closing
  have kept := IsUnclosed.take later.1 (Nat.lt_succ_of_lt inside.lt)
  rwa [List.take_take, Nat.min_eq_left after] at kept

/-! ### When tokens are due -/

/-- The character at `j` is the weaker operator, after the operator `op` at `i` and in its group. -/
def Displaces (s : List Char) (op weaker : Operator) (i j : Nat) : Prop :=
  i < j ∧ s[j]? = some weaker.symbol ∧ weaker.precedence < op.precedence ∧ SameGroup s i j

/-- The group around the character at `i` is complete at the `)` that closes it; without a group
around it, at the end. -/
def CompleteAt (s : List Char) (i time : Nat) : Prop :=
  (∃ opened, Encloses s opened i ∧ Encloses s opened time ∧ s[time]? = some ')') ∨
    ((∀ opened, ¬ Encloses s opened i) ∧ time = s.length)

/-- When the characters of a pattern are due to leave as tokens, and why. -/
inductive Due (s : List Char) : Emission → Prop where
  /-- A literal leaves at once. -/
  | literal {c : Char} {i : Nat} (found : s[i]? = some c) (plain : IsLiteral c) :
      Due s ⟨.literal c, i, i, none⟩
  /-- The first weaker operator in its group makes an operator leave. -/
  | displaced {op weaker : Operator} {i j : Nat} (found : s[i]? = some op.symbol)
      (first : IsLeast {j | ∃ weaker, Displaces s op weaker i j} j)
      (cause : s[j]? = some weaker.symbol) : Due s ⟨.operator op, i, j, some weaker⟩
  /-- Where there is none, an operator leaves when its group is complete. -/
  | completed {op : Operator} {i time : Nat} (found : s[i]? = some op.symbol)
      (stays : ∀ j weaker, ¬ Displaces s op weaker i j) (complete : CompleteAt s i time) :
      Due s ⟨.operator op, i, time, none⟩

theorem CompleteAt.unique (covered : ∀ k, 0 ≤ depth s k) (h : CompleteAt s i time)
    (h' : CompleteAt s i j) : time = j := by
  rcases h with ⟨opened, around, inside, closing⟩ | ⟨top, rfl⟩
  · rcases h' with ⟨opened', around', inside', closing'⟩ | ⟨top', _⟩
    · obtain rfl := around.unique around'
      rcases Nat.lt_trichotomy time j with before | same | after
      · exact absurd inside' (not_encloses_of_closing covered inside closing before)
      · exact same
      · exact absurd inside (not_encloses_of_closing covered inside' closing' after)
    · exact absurd around (top' opened)
  · rcases h' with ⟨opened, around, _⟩ | ⟨_, rfl⟩
    · exact absurd around (top opened)
    · rfl

/-- What is due is the token of its character. -/
theorem Due.exists_char {e : Emission} (h : Due s e) :
    ∃ c, s[e.origin]? = some c ∧ hasToken c = true ∧ e.token = Token.ofChar c := by
  cases h with
  | literal found plain =>
    exact ⟨_, found, hasToken_of_isLiteral plain, (ofChar_of_isLiteral plain).symm⟩
  | displaced found _ _ =>
    exact ⟨_, found, hasToken_symbol _, (Token.ofChar_symbol_operator _).symm⟩
  | completed found _ _ =>
    exact ⟨_, found, hasToken_symbol _, (Token.ofChar_symbol_operator _).symm⟩

/-- A character is due once. -/
theorem Due.unique (covered : ∀ k, 0 ≤ depth s k) {e e' : Emission} (h : Due s e) (h' : Due s e')
    (same : e.origin = e'.origin) : e = e' := by
  have token : e.token = e'.token := by
    obtain ⟨c, found, _, read⟩ := h.exists_char
    obtain ⟨c', found', _, read'⟩ := h'.exists_char
    rw [same, found', Option.some.injEq] at found
    rw [read, read', found]
  cases h with
  | literal found plain =>
    cases h' with
    | literal => cases same; cases token; rfl
    | displaced => cases token
    | completed => cases token
  | displaced found first cause =>
    cases h' with
    | literal => cases token
    | displaced found' first' cause' =>
      cases same; cases token
      obtain rfl := first.unique first'
      rw [cause, Option.some.injEq] at cause'
      rw [Operator.symbol_injective cause']
    | completed found' stays' complete' =>
      cases same; cases token
      obtain ⟨weaker, displaces⟩ := first.1
      exact absurd displaces (stays' _ weaker)
  | completed found stays complete =>
    cases h' with
    | literal => cases token
    | displaced found' first' cause' =>
      cases same; cases token
      obtain ⟨weaker, displaces⟩ := first'.1
      exact absurd displaces (stays _ weaker)
    | completed found' stays' complete' =>
      cases same; cases token
      rw [complete.unique covered complete']

end WholeMatch.Infix
