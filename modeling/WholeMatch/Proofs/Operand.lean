import WholeMatch.Expr.Automaton

/-!
# Automata as operands

What the operators need to know of the automata they combine (`IsOperand`), and what becomes of an
operand: its states are found again, moved by an offset, and only its accept state has new edges
(`Holds`). Every operator turns operands into an operand, so each expression has one as its
automaton (`Expr.isOperand_automaton`).
-/

namespace WholeMatch

namespace State

@[simp] theorem label_shift (offset : Nat) (s : State) : (s.shift offset).label = s.label := rfl

@[simp] theorem edges_shift (offset : Nat) (s : State) :
    (s.shift offset).edges = s.edges.map (offset + ·) := rfl

@[simp] theorem shift_zero : shift 0 = id := by
  funext s
  cases s
  simp [shift]

@[simp] theorem shift_shift (first second : Nat) (s : State) :
    (s.shift first).shift second = s.shift (second + first) := by
  simp [shift, Function.comp_def, Nat.add_assoc]

@[simp] theorem shift_link (offset target : Nat) (s : State) :
    (s.link target).shift offset = (s.shift offset).link (offset + target) := by
  simp [shift, link]

theorem shift_injective (offset : Nat) : Function.Injective (shift offset) := by
  intro s s' same
  have labels : (s.shift offset).label = (s'.shift offset).label := by rw [same]
  have edges : s.edges.map (offset + ·) = s'.edges.map (offset + ·) := by
    rw [← edges_shift, ← edges_shift, same]
  have injective : Function.Injective (offset + ·) := fun _ _ => Nat.add_left_cancel
  cases s
  cases s'
  rw [mk.injEq]
  exact ⟨labels, (List.map_inj_right fun _ _ h => injective h).1 edges⟩

end State

namespace Automaton

/-- An automaton that can be combined with others: it has a start state, nothing leads out of it,
and its accept state, the last but one, is silent and still without edges. -/
structure IsOperand (m : Automaton) : Prop where
  start_lt : m.start < m.size
  accept_add_two : m.accept + 2 = m.size
  state?_accept : m.state? m.accept = some .silent
  edges_lt : ∀ {id : Nat} {s : State}, m.state? id = some s → ∀ t ∈ s.edges, t < m.size

theorem IsOperand.accept_lt {m : Automaton} (h : m.IsOperand) : m.accept < m.size :=
  lt_size_of_state? h.state?_accept

/-- The states of `a` stand in `m` from `offset` on, and `exits` are the edges of its accept
state there. -/
structure Holds (m : Automaton) (offset : Nat) (a : Automaton) (exits : List Nat) : Prop where
  inner : ∀ id, id < a.size → id ≠ a.accept →
    m.state? (offset + id) = (a.state? id).map (State.shift offset)
  exit : m.state? (offset + a.accept) = some { edges := exits }

/-- Edges stay among the states of an operand or are its exits. -/
theorem Holds.edges_lt_or_mem {m a : Automaton} {offset id : Nat} {exits : List Nat} {s : State}
    (h : m.Holds offset a exits) (operand : a.IsOperand) (lt : id < a.size)
    (known : m.state? (offset + id) = some s) {t : Nat} (edge : t ∈ s.edges) :
    (offset ≤ t ∧ t < offset + a.size) ∨ (id = a.accept ∧ t ∈ exits) := by
  by_cases last : id = a.accept
  · subst last
    rw [h.exit, Option.some.injEq] at known
    subst known
    exact .inr ⟨rfl, edge⟩
  · rw [h.inner id lt last, Option.map_eq_some_iff] at known
    obtain ⟨s', known, rfl⟩ := known
    rw [State.edges_shift] at edge
    obtain ⟨t', inside, rfl⟩ := List.mem_map.1 edge
    have := operand.edges_lt known t' inside
    omega

/-- Edges stay below a bound that leaves room for the operand and its exits. -/
theorem Holds.edges_lt {m a : Automaton} {offset id bound : Nat} {exits : List Nat} {s : State}
    (h : m.Holds offset a exits) (operand : a.IsOperand) (room : offset + a.size ≤ bound)
    (exits_lt : ∀ t ∈ exits, t < bound) (lt : id < a.size)
    (known : m.state? (offset + id) = some s) {t : Nat} (edge : t ∈ s.edges) : t < bound := by
  rcases h.edges_lt_or_mem operand lt known edge with inside | ⟨_, exit⟩
  · omega
  · exact exits_lt t exit

variable {a b : Automaton}

theorem state?_beside_of_lt {id : Nat} (lt : id < a.size) :
    (a.beside b).state? id = a.state? id := by
  rw [state?_beside, if_pos lt]

@[simp] theorem state?_beside_add (a b : Automaton) (id : Nat) :
    (a.beside b).state? (a.size + id) = (b.state? id).map (State.shift a.size) := by
  rw [state?_beside, if_neg (by omega), Nat.add_sub_cancel_left]

/-! ### Concatenation -/

theorem holds_concat_first (ha : a.IsOperand) :
    (a.concat b).Holds 0 a [a.size + b.start] where
  inner id lt ne := by
    simp [concat, state?_link, state?_beside_of_lt lt, ne]
  exit := by
    simp [concat, state?_link, state?_beside_of_lt ha.accept_lt, ha.state?_accept, State.link,
      State.silent]

theorem holds_concat_second (ha : a.IsOperand) (hb : b.IsOperand) :
    (a.concat b).Holds a.size b [] where
  inner id _ _ := by
    have apart : a.size + id ≠ a.accept := by have := ha.accept_lt; omega
    simp [concat, state?_link, apart]
  exit := by
    have apart : a.size + b.accept ≠ a.accept := by have := ha.accept_lt; omega
    simp [concat, state?_link, apart, hb.state?_accept, State.silent, State.shift]

@[simp] theorem start_concat : (a.concat b).start = a.start := rfl

@[simp] theorem accept_concat : (a.concat b).accept = a.size + b.accept := rfl

theorem IsOperand.concat (ha : a.IsOperand) (hb : b.IsOperand) : (a.concat b).IsOperand where
  start_lt := by
    have := ha.start_lt
    simp only [start_concat, size_concat]
    omega
  accept_add_two := by
    have := hb.accept_add_two
    simp only [accept_concat, size_concat]
    omega
  state?_accept := (holds_concat_second ha hb).exit
  edges_lt {id s} known t edge := by
    have lt := lt_size_of_state? known
    have start_lt := hb.start_lt
    rw [size_concat] at lt ⊢
    by_cases first : id < a.size
    · rw [← Nat.zero_add id] at known
      apply (holds_concat_first ha).edges_lt ha (by omega) _ first known edge
      rw [List.forall_mem_singleton]
      omega
    · obtain ⟨id, rfl⟩ := Nat.exists_eq_add_of_le (Nat.not_lt.1 first)
      have second : id < b.size := by omega
      exact (holds_concat_second ha hb).edges_lt hb (by omega) (List.forall_mem_nil _) second known
        edge

/-! ### Alternation -/

@[simp] theorem start_alternate : (a.alternate b).start = a.size + b.size + 1 := rfl

@[simp] theorem accept_alternate : (a.alternate b).accept = a.size + b.size := rfl

theorem holds_alternate_first (ha : a.IsOperand) :
    (a.alternate b).Holds 0 a [a.size + b.size] where
  inner id lt ne := by
    have apart : id ≠ a.size + b.accept := by omega
    have notEnd : id ≠ a.size + b.size := by omega
    have notStart : id ≠ a.size + b.size + 1 := by omega
    simp [alternate, addSilent, state?_addState, state?_link, state?_beside_of_lt lt, ne, apart,
      notEnd, notStart]
  exit := by
    have lt := ha.accept_lt
    have apart : a.accept ≠ a.size + b.accept := by omega
    have notEnd : a.accept ≠ a.size + b.size := by omega
    have notStart : a.accept ≠ a.size + b.size + 1 := by omega
    simp [alternate, addSilent, state?_addState, state?_link, state?_beside_of_lt lt, apart, notEnd,
      notStart, ha.state?_accept, State.link, State.silent]

theorem holds_alternate_second (ha : a.IsOperand) (hb : b.IsOperand) :
    (a.alternate b).Holds a.size b [a.size + b.size] where
  inner id lt ne := by
    have apart : a.size + id ≠ a.accept := by have := ha.accept_lt; omega
    have notEnd : id ≠ b.size := by omega
    have notStart : a.size + id ≠ a.size + b.size + 1 := by omega
    simp [alternate, addSilent, state?_addState, state?_link, ne, apart, notEnd, notStart]
  exit := by
    have lt := hb.accept_lt
    have apart : a.size + b.accept ≠ a.accept := by have := ha.accept_lt; omega
    have notEnd : b.accept ≠ b.size := by omega
    have notStart : a.size + b.accept ≠ a.size + b.size + 1 := by omega
    simp [alternate, addSilent, state?_addState, state?_link, apart, notEnd, notStart,
      hb.state?_accept, State.link, State.silent, State.shift]

theorem state?_alternate_accept :
    (a.alternate b).state? (a.size + b.size) = some .silent := by
  simp [alternate, addSilent, state?_addState]

theorem state?_alternate_start :
    (a.alternate b).state? (a.size + b.size + 1) =
      some { edges := [a.start, a.size + b.start] } := by
  simp [alternate, addSilent, state?_addState]

theorem IsOperand.alternate (ha : a.IsOperand) (hb : b.IsOperand) :
    (a.alternate b).IsOperand where
  start_lt := by
    simp only [start_alternate, size_alternate]
    omega
  accept_add_two := by
    rw [accept_alternate, size_alternate]
  state?_accept := state?_alternate_accept
  edges_lt {id s} known t edge := by
    have lt := lt_size_of_state? known
    have start_lt := ha.start_lt
    have start_lt' := hb.start_lt
    rw [size_alternate] at lt ⊢
    by_cases first : id < a.size
    · rw [← Nat.zero_add id] at known
      apply (holds_alternate_first ha).edges_lt ha (by omega) _ first known edge
      rw [List.forall_mem_singleton]
      omega
    by_cases second : id < a.size + b.size
    · obtain ⟨id, rfl⟩ := Nat.exists_eq_add_of_le (Nat.not_lt.1 first)
      have second : id < b.size := by omega
      apply (holds_alternate_second ha hb).edges_lt hb (by omega) _ second known edge
      rw [List.forall_mem_singleton]
      omega
    by_cases last : id = a.size + b.size
    · rw [last, state?_alternate_accept, Option.some.injEq] at known
      subst known
      exact absurd edge List.not_mem_nil
    · have last : id = a.size + b.size + 1 := by omega
      rw [last, state?_alternate_start, Option.some.injEq] at known
      subst known
      simp only [List.mem_cons, List.not_mem_nil, or_false] at edge
      omega

/-! ### Repetition -/

@[simp] theorem start_star : a.star.start = a.size + 1 := rfl

@[simp] theorem accept_star : a.star.accept = a.size := rfl

theorem holds_star (ha : a.IsOperand) : a.star.Holds 0 a [a.start, a.size] where
  inner id lt ne := by
    have notEnd : id ≠ a.size := by omega
    have notStart : id ≠ a.size + 1 := by omega
    simp [star, addSilent, state?_addState, state?_link, ne, notEnd, notStart]
  exit := by
    have lt := ha.accept_lt
    have notEnd : a.accept ≠ a.size := by omega
    have notStart : a.accept ≠ a.size + 1 := by omega
    simp [star, addSilent, state?_addState, state?_link, notEnd, notStart, ha.state?_accept,
      State.link, State.silent]

theorem state?_star_accept : a.star.state? a.size = some .silent := by
  simp [star, addSilent, state?_addState]

theorem state?_star_start :
    a.star.state? (a.size + 1) = some { edges := [a.start, a.size] } := by
  simp [star, addSilent, state?_addState]

theorem IsOperand.star (ha : a.IsOperand) : a.star.IsOperand where
  start_lt := by simp
  accept_add_two := by
    rw [accept_star, size_star]
  state?_accept := state?_star_accept
  edges_lt {id s} known t edge := by
    have lt := lt_size_of_state? known
    have start_lt := ha.start_lt
    rw [size_star] at lt ⊢
    by_cases inner : id < a.size
    · rw [← Nat.zero_add id] at known
      apply (holds_star ha).edges_lt ha (by omega) _ inner known edge
      rw [List.forall_mem_cons, List.forall_mem_singleton]
      omega
    by_cases last : id = a.size
    · rw [last, state?_star_accept, Option.some.injEq] at known
      subst known
      exact absurd edge List.not_mem_nil
    · have last : id = a.size + 1 := by omega
      rw [last, state?_star_start, Option.some.injEq] at known
      subst known
      simp only [List.mem_cons, List.not_mem_nil, or_false] at edge
      omega

/-! ### Literals -/

theorem state?_literal_accept {c : Char} : (literal c).state? 0 = some .silent := rfl

theorem state?_literal_start {c : Char} :
    (literal c).state? 1 = some { label := some c, edges := [0] } := rfl

theorem isOperand_literal (c : Char) : (literal c).IsOperand where
  start_lt := Nat.one_lt_two
  accept_add_two := rfl
  state?_accept := rfl
  edges_lt {id s} known t edge := by
    have lt := lt_size_of_state? known
    rw [size_literal] at lt ⊢
    rcases (by omega : id = 0 ∨ id = 1) with rfl | rfl
    · cases known
      exact absurd edge List.not_mem_nil
    · cases known
      rw [List.mem_singleton.1 edge]
      exact Nat.two_pos

end Automaton

theorem Expr.isOperand_automaton (e : Expr) : e.automaton.IsOperand := by
  induction e with
  | literal c => exact Automaton.isOperand_literal c
  | concat a b iha ihb => exact iha.concat ihb
  | alternate a b iha ihb => exact iha.alternate ihb
  | star a iha => exact iha.star

/-- The ends of an automaton are two states. -/
theorem Expr.start_ne_accept_automaton (e : Expr) : e.automaton.start ≠ e.automaton.accept := by
  cases e with
  | literal c => exact Nat.one_ne_zero
  | concat a b =>
    have lt := a.isOperand_automaton.start_lt
    simp only [automaton, Automaton.start_concat, Automaton.accept_concat]
    omega
  | alternate a b => exact Nat.succ_ne_self _
  | star a => exact Nat.succ_ne_self _

end WholeMatch
