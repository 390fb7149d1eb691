import Mathlib.Algebra.BigOperators.Group.List.Basic
import Mathlib.Algebra.Order.Ring.Int
import Mathlib.Order.Bounds.Basic
import Mathlib.Order.Nat
import WholeMatch.Proofs.Limit

/-!
# Counting tells how an assembly ends

How many expressions the first tokens of a post-order leave, and how many states they take, can be
counted without any automaton (`Postorder.depth` and `Postorder.states`). While no token before has
been starved of operands and no limit has been outgrown, the assembly has just these numbers of
fragments and states (`Postorder.Reaches`), so the first token at which one or the other happens
decides about the error, and without one the count at the end does.

Since the states counted only grow, a limit has no effect on an automaton that keeps it
(`Postorder.result_assemble_eq_ok_iff_keeps`).
-/

namespace WholeMatch

/-! ### Least numbers -/

theorem exists_isLeast_le {P : Nat → Prop} {i : Nat} (h : P i) :
    ∃ least ≤ i, IsLeast {k | P k} least := by
  classical
  exact ⟨Nat.find ⟨i, h⟩, Nat.find_min' ⟨i, h⟩ h, Nat.isLeast_find ⟨i, h⟩⟩

theorem not_of_lt_isLeast {P : Nat → Prop} {least i : Nat} (h : IsLeast {k | P k} least)
    (lt : i < least) : ¬ P i :=
  fun holds => Nat.not_le.2 lt (h.2 holds)

/-! ### Expressions by number -/

namespace Expr

variable {token : Token} {stack stack' : List Expr}

theorem length_of_reduce? (h : reduce? token stack = some stack') :
    stack'.length + token.arity = stack.length + 1 := by
  unfold reduce? at h
  split at h <;> cases h <;> rfl

/-- The number of states of all expressions together. -/
def statesAll (stack : List Expr) : Nat := (stack.map states).sum

theorem statesAll_singleton (e : Expr) : statesAll [e] = e.states := by
  rw [statesAll, List.map_singleton, List.sum_singleton]

/-- Every token but a concatenation takes two states. -/
theorem statesAll_of_reduce? (h : reduce? token stack = some stack') :
    statesAll stack' = statesAll stack + if token = .operator .concat then 0 else 2 := by
  unfold reduce? at h
  split at h <;> cases h <;> simp [statesAll, states] <;> omega

theorem statesAll_le_of_reduceAll? {tokens : List Token}
    (h : reduceAll? tokens stack = some stack') : statesAll stack ≤ statesAll stack' := by
  induction tokens generalizing stack with
  | nil =>
    cases h
    exact Nat.le_refl _
  | cons token rest ih =>
    rw [reduceAll?, Option.bind_eq_some_iff] at h
    obtain ⟨next, step, later⟩ := h
    have grown := statesAll_of_reduce? step
    exact Nat.le_trans (by omega) (ih later)

/-- The first expressions have at most the states of all. -/
theorem statesAll_le_of_suffix {stack stack' : List Expr} (h : stack' <:+ stack) :
    statesAll stack' ≤ statesAll stack := by
  obtain ⟨above, rfl⟩ := h
  simp [statesAll]

end Expr

namespace Assembly

theorem size_ofExprs (stack : List Expr) :
    (ofExprs stack).automaton.size = Expr.statesAll stack := by
  induction stack with
  | nil => rfl
  | cons e below ih =>
    rw [ofExprs, automaton_push, Automaton.size_beside, ih, Expr.size_automaton, Nat.add_comm]
    rfl

/-- States are only ever added, so a limit that is kept at the end has been kept all along. -/
theorem result_placeAll_of_reduceAll? {limit : Option Nat} {position : Nat} {tokens : List Token}
    {stack stack' : List Expr} (read : Expr.reduceAll? tokens stack = some stack')
    (keeps : ∀ bound, limit = some bound → Expr.statesAll stack' ≤ bound) :
    ((ofExprs stack).placeAll limit position tokens).result = .ok (ofExprs stack') := by
  induction tokens generalizing position stack with
  | nil =>
    cases read
    rfl
  | cons token rest ih =>
    rw [Expr.reduceAll?, Option.bind_eq_some_iff] at read
    obtain ⟨next, step, later⟩ := read
    have kept : ∀ bound, limit = some bound → (ofExprs next).automaton.size ≤ bound := by
      intro bound limited
      rw [size_ofExprs]
      exact Nat.le_trans (Expr.statesAll_le_of_reduceAll? later) (keeps bound limited)
    rw [result_placeAll_cons, result_place_of_reduce? step, within_of_le kept]
    exact ih later

end Assembly

/-- Under a limit there are the same automata as without one, but only those that keep it. -/
theorem Postorder.result_assemble_eq_ok_iff_keeps {p : Postorder} {limit : Option Nat}
    {m : Automaton} :
    (p.assemble limit).result = .ok m ↔
      (p.assemble none).result = .ok m ∧ ∀ bound, limit = some bound → m.size ≤ bound := by
  constructor
  · intro h
    refine ⟨result_assemble_none_of_ok h, ?_⟩
    rintro bound rfl
    exact size_le_of_result_assemble h
  · intro h
    obtain ⟨assembled, keeps⟩ := h
    obtain ⟨e, rfl, rfl⟩ := result_assemble_eq_ok_iff.1 assembled
    have run : (Assembly.placeAll limit {} 0 e.postorder.tokens).result =
        .ok (Assembly.ofExprs [e]) := by
      refine Assembly.result_placeAll_of_reduceAll? (Expr.reduceAll?_tokens e []) ?_
      intro bound limited
      rw [Expr.statesAll_singleton, ← Expr.size_automaton]
      exact keeps bound limited
    rw [result_assemble, run]
    exact Assembly.finish_ofExprs_eq_ok_iff.2 ⟨e, rfl, rfl⟩

namespace Postorder

variable {p : Postorder} {limit : Option Nat} {k : Nat} {token : Token} {stack : List Expr}

/-! ### Counting -/

/-- How many expressions the first `k` tokens leave, each of them taking as many as its arity and
giving one. -/
def depth (p : Postorder) (k : Nat) : Int :=
  ((p.tokens.take k).map fun token => 1 - (token.arity : Int)).sum

/-- How many states the first `k` tokens take. -/
def states (p : Postorder) (k : Nat) : Nat :=
  2 * (p.tokens.take k).countP (· ≠ .operator .concat)

/-- The token at `k` takes more expressions than there are before it. -/
def Starves (p : Postorder) (k : Nat) : Prop :=
  ∃ token, p.tokens[k]? = some token ∧ p.depth k < token.arity

/-- With the token at `k` there are more states than allowed. -/
def Outgrows (p : Postorder) (limit : Option Nat) (k : Nat) : Prop :=
  k < p.size ∧ ∃ bound, limit = some bound ∧ bound < p.states (k + 1)

theorem depth_succ (found : p.tokens[k]? = some token) :
    p.depth (k + 1) = p.depth k + (1 - (token.arity : Int)) := by
  rw [depth, List.take_add_one, found, Option.toList_some, List.map_append, List.sum_append]
  simp [depth]

theorem states_succ (found : p.tokens[k]? = some token) :
    p.states (k + 1) = p.states k + if token = .operator .concat then 0 else 2 := by
  rw [states, List.take_add_one, found, Option.toList_some, List.countP_append, Nat.mul_add]
  by_cases same : token = .operator .concat <;> simp [states, same]

/-! ### Runs up to a token -/

/-- The first `k` tokens have been placed, and leave one fragment for each expression counted. -/
structure Reaches (p : Postorder) (limit : Option Nat) (k : Nat) (stack : List Expr) : Prop where
  placed : (Assembly.placeAll limit {} 0 (p.tokens.take k)).result = .ok (.ofExprs stack)
  length_eq : (stack.length : Int) = p.depth k
  states_eq : Expr.statesAll stack = p.states k

namespace Reaches

theorem zero : p.Reaches limit 0 [] where
  placed := rfl
  length_eq := rfl
  states_eq := rfl

/-- A token that is not starved leaves the expressions and states counted with it. -/
theorem exists_reduce? (h : p.Reaches limit k stack) (found : p.tokens[k]? = some token)
    (fed : ¬ p.Starves k) :
    ∃ stack', Expr.reduce? token stack = some stack' ∧
      (stack'.length : Int) = p.depth (k + 1) ∧ Expr.statesAll stack' = p.states (k + 1) := by
  cases reduced : Expr.reduce? token stack with
  | none =>
    have few := Expr.reduce?_eq_none_iff.1 reduced
    have := h.length_eq
    exact absurd ⟨token, found, by omega⟩ fed
  | some stack' =>
    have length := Expr.length_of_reduce? reduced
    have := h.length_eq
    refine ⟨stack', rfl, ?_, ?_⟩
    · rw [depth_succ found]
      omega
    · rw [states_succ found, Expr.statesAll_of_reduce? reduced, h.states_eq]

/-- The tokens up to the one at `k` are placed by placing this one last. -/
theorem result_placeAll_succ (h : p.Reaches limit k stack) (found : p.tokens[k]? = some token) :
    (Assembly.placeAll limit {} 0 (p.tokens.take (k + 1))).result =
      ((Assembly.ofExprs stack).place limit k token).result := by
  have lt : k < p.tokens.length := (List.getElem?_eq_some_iff.1 found).1
  have position : 0 + (p.tokens.take k).length = k := by
    rw [Nat.zero_add, List.length_take_of_le (Nat.le_of_lt lt)]
  rw [List.take_add_one, found, Option.toList_some, Assembly.result_placeAll_append, h.placed,
    position]
  show (Assembly.placeAll limit (.ofExprs stack) k [token]).result = _
  rw [Assembly.result_placeAll_cons]
  cases ((Assembly.ofExprs stack).place limit k token).result <;> rfl

/-- A token that is neither starved nor outgrows the limit is placed. -/
theorem succ (h : p.Reaches limit k stack) (lt : k < p.size) (fed : ¬ p.Starves k)
    (fits : ¬ p.Outgrows limit k) : ∃ stack', p.Reaches limit (k + 1) stack' := by
  have found : p.tokens[k]? = some p.tokens[k] := List.getElem?_eq_getElem lt
  obtain ⟨stack', reduced, length, states⟩ := h.exists_reduce? found fed
  have keeps : ∀ bound, limit = some bound →
      (Assembly.ofExprs stack').automaton.size ≤ bound := by
    intro bound limited
    rw [Assembly.size_ofExprs, states]
    exact Nat.not_lt.1 fun exceeds => fits ⟨lt, bound, limited, exceeds⟩
  refine ⟨stack', ?_, length, states⟩
  rw [h.result_placeAll_succ found, Assembly.result_place_of_reduce? reduced,
    Assembly.within_of_le keeps]

/-- As long as no token is starved or outgrows the limit, all are placed. -/
theorem exists_of_forall (fed : ∀ i < k, ¬ p.Starves i) (fits : ∀ i < k, ¬ p.Outgrows limit i)
    (le : k ≤ p.size) : ∃ stack, p.Reaches limit k stack := by
  induction k with
  | zero => exact ⟨[], zero⟩
  | succ k ih =>
    obtain ⟨stack, reached⟩ := ih (fun i lt => fed i (Nat.lt_succ_of_lt lt))
      (fun i lt => fits i (Nat.lt_succ_of_lt lt)) (Nat.le_of_succ_le le)
    exact reached.succ le (fed k (Nat.lt_succ_self k)) (fits k (Nat.lt_succ_self k))

/-! ### How a run ends -/

/-- A token that cannot be placed ends the assembly. -/
theorem result_assemble_of_place (h : p.Reaches limit k stack) (found : p.tokens[k]? = some token)
    {e : Error} (failed : ((Assembly.ofExprs stack).place limit k token).result = .error e) :
    (p.assemble limit).result = .error e := by
  rw [result_assemble, ← List.take_append_drop (k + 1) p.tokens, Assembly.result_placeAll_append,
    h.result_placeAll_succ found, failed]
  rfl

theorem result_assemble_of_starves (h : p.Reaches limit k stack) (starved : p.Starves k) :
    ∃ op, p.tokens[k]? = some (.operator op) ∧
      (p.assemble limit).result = .error (.missingOperand op k) := by
  obtain ⟨token, found, few⟩ := starved
  rw [← h.length_eq] at few
  cases token with
  | literal c => simp [Token.arity] at few; omega
  | operator op =>
    have few : Expr.reduce? (.operator op) stack = none :=
      Expr.reduce?_eq_none_iff.2 (Int.ofNat_lt.1 few)
    exact ⟨op, found,
      h.result_assemble_of_place found (Assembly.result_place_of_reduce?_eq_none few)⟩

theorem result_assemble_of_outgrows (h : p.Reaches limit k stack) (fed : ¬ p.Starves k)
    (outgrown : p.Outgrows limit k) :
    ∃ bound, limit = some bound ∧ (p.assemble limit).result = .error (.tooComplex bound) := by
  obtain ⟨lt, bound, rfl, exceeds⟩ := outgrown
  have found : p.tokens[k]? = some p.tokens[k] := List.getElem?_eq_getElem lt
  obtain ⟨stack', reduced, _, states⟩ := h.exists_reduce? found fed
  rw [← states, ← Assembly.size_ofExprs] at exceeds
  refine ⟨bound, rfl, h.result_assemble_of_place found ?_⟩
  rw [Assembly.result_place_of_reduce? reduced, Assembly.within_of_lt exceeds]

/-- When all tokens are placed, the number of expressions they leave decides. -/
theorem result_assemble_of_size (h : p.Reaches limit p.size stack) :
    (p.assemble limit).result = (Assembly.ofExprs stack).finish := by
  have placed := h.placed
  rw [size, List.take_length] at placed
  rw [result_assemble, placed]
  rfl

theorem result_assemble_of_depth_ne_one (h : p.Reaches limit p.size stack)
    (several : p.depth p.size ≠ 1) :
    ∃ count : Nat, count = p.depth p.size ∧
      (p.assemble limit).result = .error (.dangling count) := by
  refine ⟨stack.length, h.length_eq, ?_⟩
  have := h.length_eq
  rw [h.result_assemble_of_size, Assembly.finish_eq_error_iff, Assembly.length_fragments_ofExprs]
  exact ⟨by omega, rfl⟩

theorem result_assemble_of_depth_eq_one (h : p.Reaches limit p.size stack)
    (single : p.depth p.size = 1) :
    ∃ m, (p.assemble limit).result = .ok m ∧ m.size = p.states p.size := by
  have length : stack.length = 1 := by
    have := h.length_eq
    omega
  obtain ⟨e, rfl⟩ := List.length_eq_one_iff.1 length
  refine ⟨e.automaton, ?_, ?_⟩
  · rw [h.result_assemble_of_size]
    exact Assembly.finish_ofExprs_eq_ok_iff.2 ⟨e, rfl, rfl⟩
  · rw [Expr.size_automaton, ← h.states_eq, Expr.statesAll_singleton]

end Reaches

/-! ### The first thing to go wrong -/

/-- The first token that is starved of operands decides, unless the limit has been outgrown at a
token before it; the limit is reported where it is outgrown before any token is starved; if neither
ever happens, the expressions left at the end are counted, and if it is one, its automaton has the
states counted. -/
theorem assemble_outcome (p : Postorder) (limit : Option Nat) :
    (∀ m, IsLeast {k | p.Starves k} m → (∀ x, IsLeast {k | p.Outgrows limit k} x → m ≤ x) →
      ∃ op, p.tokens[m]? = some (.operator op) ∧
        (p.assemble limit).result = .error (.missingOperand op m)) ∧
    (∀ x, IsLeast {k | p.Outgrows limit k} x → (∀ m, IsLeast {k | p.Starves k} m → x < m) →
      ∃ bound, limit = some bound ∧ (p.assemble limit).result = .error (.tooComplex bound)) ∧
    ((∀ k, ¬ p.Starves k) → (∀ k, ¬ p.Outgrows limit k) →
      (p.depth p.size ≠ 1 → ∃ count : Nat, count = p.depth p.size ∧
        (p.assemble limit).result = .error (.dangling count)) ∧
      (p.depth p.size = 1 → ∃ m, (p.assemble limit).result = .ok m ∧
        m.size = p.states p.size)) := by
  refine ⟨?_, ?_, ?_⟩
  · intro m starved first
    have fits : ∀ i < m, ¬ p.Outgrows limit i := by
      intro i lt outgrown
      obtain ⟨x, le, least⟩ := exists_isLeast_le outgrown
      have := first x least
      omega
    obtain ⟨_, found, _⟩ := starved.1
    have le : m ≤ p.size := Nat.le_of_lt (List.getElem?_eq_some_iff.1 found).1
    obtain ⟨stack, reached⟩ := Reaches.exists_of_forall (fun i => not_of_lt_isLeast starved) fits le
    exact reached.result_assemble_of_starves starved.1
  · intro x outgrown first
    have fed : ∀ i ≤ x, ¬ p.Starves i := by
      intro i le starved
      obtain ⟨m, le', least⟩ := exists_isLeast_le starved
      have := first m least
      omega
    obtain ⟨stack, reached⟩ := Reaches.exists_of_forall (fun i lt => fed i (Nat.le_of_lt lt))
      (fun i => not_of_lt_isLeast outgrown) (Nat.le_of_lt outgrown.1.1)
    exact reached.result_assemble_of_outgrows (fed x (Nat.le_refl x)) outgrown.1
  · intro fed fits
    obtain ⟨stack, reached⟩ := Reaches.exists_of_forall (fun i _ => fed i) (fun i _ => fits i)
      (Nat.le_refl p.size)
    exact ⟨reached.result_assemble_of_depth_ne_one, reached.result_assemble_of_depth_eq_one⟩

/-- A token that is starved where the limit would be outgrown is reported as starved. -/
theorem assemble_outcome_starved_and_outgrown :
    IsLeast {k | (ofText "a|").Starves k} 1 ∧
      IsLeast {k | (ofText "a|").Outgrows (some 3) k} 1 ∧
      ∃ op, (ofText "a|").tokens[1]? = some (.operator op) ∧
        ((ofText "a|").assemble (some 3)).result = .error (.missingOperand op 1) := by
  have starved : IsLeast {k | (ofText "a|").Starves k} 1 := by
    refine ⟨⟨.operator .alternate, rfl, by decide⟩, ?_⟩
    rintro (_ | k) h
    · obtain ⟨token, found, few⟩ := h
      cases found
      exact absurd few (by decide)
    · exact Nat.le_add_left 1 k
  have outgrown : IsLeast {k | (ofText "a|").Outgrows (some 3) k} 1 := by
    refine ⟨⟨by decide, 3, rfl, by decide⟩, ?_⟩
    rintro (_ | k) h
    · obtain ⟨_, bound, limited, exceeds⟩ := h
      cases limited
      exact absurd exceeds (by decide)
    · exact Nat.le_add_left 1 k
  refine ⟨starved, outgrown, (assemble_outcome (ofText "a|") (some 3)).1 1 starved ?_⟩
  intro x least
  exact outgrown.2 least.1

/-- Here the limit is outgrown one token earlier. -/
example : ((ofText "ab||").assemble (some 5)).result = .error (.tooComplex 5) := rfl

end Postorder

end WholeMatch
