import WholeMatch.Proofs.Operand

/-!
# Recovering operands

An automaton still tells what it was combined from. Its start state shows the outermost operator
(`Automaton.outermost?`), and once the operator is known, so are the operands (`concat_inj` where
the size of the first one is given, `alternate_inj` and `star_inj`).
-/

namespace WholeMatch

namespace Automaton

variable {m a b a' b' : Automaton}

/-- An automaton holds at most one operand of given size and ends at an offset. -/
theorem Holds.unique {offset : Nat} {exits exits' : List Nat} (h : m.Holds offset a exits)
    (h' : m.Holds offset a' exits') (ha : a.IsOperand) (ha' : a'.IsOperand)
    (size : a.size = a'.size) (start : a.start = a'.start) : a = a' := by
  have accept : a.accept = a'.accept := by
    have := ha.accept_add_two
    have := ha'.accept_add_two
    omega
  refine ext_state? ?_ start accept
  intro id
  by_cases lt : id < a.size
  · by_cases last : id = a.accept
    · rw [last, ha.state?_accept, accept, ha'.state?_accept]
    · have known := h.inner id lt last
      rw [h'.inner id (size ▸ lt) (accept ▸ last)] at known
      exact Option.map_injective (State.shift_injective offset) known.symm
  · have none_of_ge (x : Automaton) (ge : ¬ id < x.size) : x.state? id = none := by
      rwa [← Option.not_isSome_iff_eq_none, state?_isSome_iff]
    rw [none_of_ge a lt, none_of_ge a' (size ▸ lt)]

theorem concat_inj (ha : a.IsOperand) (hb : b.IsOperand) (ha' : a'.IsOperand)
    (hb' : b'.IsOperand) (size : a.size = a'.size) (same : a.concat b = a'.concat b') :
    a = a' ∧ b = b' := by
  have first : (a.concat b).Holds 0 a' [a'.size + b'.start] := by
    rw [same]
    exact holds_concat_first ha'
  have second : (a.concat b).Holds a.size b' [] := by
    rw [same, size]
    exact holds_concat_second ha' hb'
  have start : (a.concat b).start = (a'.concat b').start := by rw [same]
  obtain rfl := (holds_concat_first ha).unique first ha ha' size start
  have total : (a.concat b).size = (a.concat b').size := by rw [same]
  rw [size_concat, size_concat] at total
  have exit := (holds_concat_first ha).exit.symm.trans first.exit
  simp only [Option.some.injEq, State.mk.injEq, List.cons.injEq, and_true, true_and] at exit
  exact ⟨rfl, (holds_concat_second ha hb).unique second hb hb' (by omega) (by omega)⟩

/-- Of the states of the first operands, only the accept state leads to the end. -/
theorem accept_eq_of_alternate_eq (ha : a.IsOperand) (ha' : a'.IsOperand)
    (same : a.alternate b = a'.alternate b') (lt : a.accept < a'.size) :
    a.accept = a'.accept := by
  have total : (a.alternate b).size = (a'.alternate b').size := by rw [same]
  rw [size_alternate, size_alternate] at total
  have exit := (holds_alternate_first (b := b) ha).exit
  rw [same] at exit
  rcases (holds_alternate_first ha').edges_lt_or_mem ha' lt exit (List.mem_singleton_self _) with
    inside | ⟨last, _⟩
  · omega
  · exact last

theorem alternate_inj (ha : a.IsOperand) (hb : b.IsOperand) (ha' : a'.IsOperand)
    (hb' : b'.IsOperand) (same : a.alternate b = a'.alternate b') : a = a' ∧ b = b' := by
  have total : (a.alternate b).size = (a'.alternate b').size := by rw [same]
  rw [size_alternate, size_alternate] at total
  have accept : a.accept = a'.accept := by
    by_cases lt : a.accept < a'.size
    · exact accept_eq_of_alternate_eq ha ha' same lt
    · have lt' : a'.accept < a.size := by
        have := ha.accept_lt
        have := ha'.accept_lt
        omega
      exact (accept_eq_of_alternate_eq ha' ha same.symm lt').symm
  have size : a.size = a'.size := by
    rw [← ha.accept_add_two, ← ha'.accept_add_two, accept]
  have first : (a.alternate b).Holds 0 a' [a'.size + b'.size] := by
    rw [same]
    exact holds_alternate_first ha'
  have second : (a.alternate b).Holds a.size b' [a'.size + b'.size] := by
    rw [same, size]
    exact holds_alternate_second ha' hb'
  have starts := state?_alternate_start (a := a) (b := b)
  rw [same, Nat.add_right_cancel total, state?_alternate_start] at starts
  simp only [Option.some.injEq, State.mk.injEq, List.cons.injEq, and_true, true_and] at starts
  exact ⟨(holds_alternate_first ha).unique first ha ha' size (by omega),
    (holds_alternate_second ha hb).unique second hb hb' (by omega) (by omega)⟩

theorem star_inj (ha : a.IsOperand) (ha' : a'.IsOperand) (same : a.star = a'.star) :
    a = a' := by
  have size : a.size = a'.size := congrArg Automaton.accept same
  have inner : a.star.Holds 0 a' [a'.start, a'.size] := by
    rw [same]
    exact holds_star ha'
  have starts := state?_star_start (a := a)
  rw [same, size, state?_star_start] at starts
  simp only [Option.some.injEq, State.mk.injEq, List.cons.injEq, and_true, true_and] at starts
  exact (holds_star ha).unique inner ha ha' size starts.symm

/-- The token an automaton was last combined with. Only an alternation and a repetition start with
two edges, of which the second leads to the end for a repetition alone. -/
def outermost? (m : Automaton) : Option Token :=
  if m.start + 1 < m.size then some (.operator .concat)
  else
    match m.state? m.start with
    | some ⟨some c, _⟩ => some (.literal c)
    | some ⟨none, [_, last]⟩ =>
      some (.operator (if last = m.accept then .star else .alternate))
    | _ => none

theorem outermost?_literal (c : Char) : (literal c).outermost? = some (.literal c) := rfl

theorem outermost?_concat (ha : a.IsOperand) (hb : b.IsOperand) :
    (a.concat b).outermost? = some (.operator .concat) := by
  have lt := ha.start_lt
  have lt' := hb.start_lt
  rw [outermost?, start_concat, size_concat, if_pos (by omega)]

theorem outermost?_alternate (hb : b.IsOperand) :
    (a.alternate b).outermost? = some (.operator .alternate) := by
  have lt := hb.start_lt
  rw [outermost?, start_alternate, size_alternate, if_neg (by omega), state?_alternate_start]
  have inside : a.size + b.start ≠ (a.alternate b).accept := by
    rw [accept_alternate]
    omega
  simp only [if_neg inside]

theorem outermost?_star : a.star.outermost? = some (.operator .star) := by
  rw [outermost?, start_star, size_star, if_neg (by omega), state?_star_start]
  simp only [accept_star, if_true]

end Automaton

namespace Expr

/-- The last token of an expression. -/
def outermost : Expr → Token
  | literal c => .literal c
  | concat _ _ => .operator .concat
  | alternate _ _ => .operator .alternate
  | star _ => .operator .star

theorem outermost?_automaton (e : Expr) : e.automaton.outermost? = some e.outermost := by
  cases e with
  | literal c => exact Automaton.outermost?_literal c
  | concat a b => exact Automaton.outermost?_concat a.isOperand_automaton b.isOperand_automaton
  | alternate a b => exact Automaton.outermost?_alternate b.isOperand_automaton
  | star a => exact Automaton.outermost?_star

/-- All but concatenations start with their last state. -/
theorem start_add_one_of_ne_concat {e : Expr} (ne : e.outermost ≠ .operator .concat) :
    e.automaton.start + 1 = e.automaton.size := by
  cases e with
  | literal c => rfl
  | concat a b => exact absurd rfl ne
  | alternate a b =>
    simp only [automaton, Automaton.start_alternate, Automaton.size_alternate]
  | star a => simp only [automaton, Automaton.start_star, Automaton.size_star]

end Expr

end WholeMatch
