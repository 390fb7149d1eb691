import WholeMatch.Assembly
import WholeMatch.Proofs.Operand
import WholeMatch.Proofs.Reduction

/-!
# Placing tokens combines automata

The assembly keeps all fragments in one automaton and wires them there. Still it is at any moment
what one gets by setting finished automata beside each other, one for each expression that the
tokens so far leave (`Assembly.ofExprs`): placing an operator does to the last of them, in place
and above anything that stands before them, what the operator does to whole automata. Hence a
post-order has an automaton exactly if it is that of an expression, and it is the automaton of
this expression (`Postorder.result_assemble_eq_ok_iff`).
-/

namespace WholeMatch

namespace Automaton

variable {m : Automaton} {source target : Nat} {s : State}

/-- The ends of an automaton whose states have been moved by an offset. -/
def ends (m : Automaton) (offset : Nat) : Fragment := ⟨offset + m.start, offset + m.accept⟩

/-! ### Automata beside each other -/

theorem beside_assoc (a b c : Automaton) :
    (a.beside b).beside c = a.beside (b.beside c) := by
  refine ext_state? ?_ rfl rfl
  intro id
  by_cases first : id < a.size
  · have lt : id < (a.beside b).size := by rw [size_beside]; omega
    rw [state?_beside_of_lt lt, state?_beside_of_lt first, state?_beside_of_lt first]
  obtain ⟨id, rfl⟩ := Nat.exists_eq_add_of_le (Nat.not_lt.1 first)
  by_cases second : id < b.size
  · have lt : a.size + id < (a.beside b).size := by rw [size_beside]; omega
    rw [state?_beside_of_lt lt, state?_beside_add, state?_beside_add, state?_beside_of_lt second]
  · obtain ⟨id, rfl⟩ := Nat.exists_eq_add_of_le (Nat.not_lt.1 second)
    have moved := state?_beside_add (a.beside b) c id
    rw [size_beside, Nat.add_assoc] at moved
    rw [moved, state?_beside_add, state?_beside_add, Option.map_map]
    congr 1
    funext s
    simp

theorem beside_link (a b : Automaton) (source target : Nat) :
    a.beside (b.link source target) = (a.beside b).link (a.size + source) (a.size + target) := by
  refine ext_state? ?_ rfl rfl
  intro id
  rw [state?_link]
  by_cases first : id < a.size
  · rw [state?_beside_of_lt first, state?_beside_of_lt first, if_neg (by omega)]
  · obtain ⟨id, rfl⟩ := Nat.exists_eq_add_of_le (Nat.not_lt.1 first)
    rw [state?_beside_add, state?_beside_add, state?_link]
    by_cases same : id = source
    · rw [if_pos same, if_pos (by omega), Option.map_map, Option.map_map]
      congr 1
      funext s
      simp
    · rw [if_neg same, if_neg (by omega)]

theorem beside_addState (a b : Automaton) (s : State) :
    a.beside (b.addState s) = (a.beside b).addState (s.shift a.size) := by
  simp [beside, addState]

@[simp] theorem beside_setFragment (a b : Automaton) (f : Fragment) :
    a.beside (b.setFragment f) = a.beside b := rfl

/-- Beside nothing, an automaton keeps its states. -/
theorem setFragment_beside_empty (m : Automaton) :
    ((empty.beside m).setFragment ⟨m.start, m.accept⟩) = m := by
  refine ext_state? ?_ rfl rfl
  intro id
  have kept := state?_beside_add empty m id
  rw [size_empty, Nat.zero_add, State.shift_zero, Option.map_id] at kept
  exact kept

@[simp] theorem beside_empty (m : Automaton) : m.beside empty = m := by
  simp [beside, empty]

theorem beside_addSilent (a b : Automaton) : a.beside b.addSilent = (a.beside b).addSilent :=
  beside_addState a b .silent

theorem beside_literal (m : Automaton) (c : Char) :
    m.beside (literal c) = m.addSilent.addLabeled c m.size := by
  have grown : literal c = (empty.addSilent.addLabeled c 0).setFragment ⟨1, 0⟩ := rfl
  rw [grown, beside_setFragment, addLabeled, beside_addState, beside_addSilent, beside_empty]
  rfl

theorem beside_concat (m a b : Automaton) :
    m.beside (a.concat b) =
      ((m.beside a).beside b).link (m.size + a.accept) (m.size + (a.size + b.start)) := by
  rw [concat, beside_setFragment, beside_link, beside_assoc]

theorem beside_alternate (m a b : Automaton) :
    m.beside (a.alternate b) =
      ((((m.beside a).beside b).link (m.size + a.accept) (m.size + (a.size + b.size))).link
        (m.size + (a.size + b.accept)) (m.size + (a.size + b.size))).addSilent.addState
        { edges := [m.size + a.start, m.size + (a.size + b.start)] } := by
  rw [alternate, beside_setFragment, beside_addState, beside_addSilent, beside_link, beside_link,
    beside_assoc]
  rfl

theorem beside_star (m a : Automaton) :
    m.beside a.star =
      (((m.beside a).link (m.size + a.accept) (m.size + a.start)).link
        (m.size + a.accept) (m.size + a.size)).addSilent.addState
        { edges := [m.size + a.start, m.size + a.size] } := by
  rw [star, beside_setFragment, beside_addState, beside_addSilent, beside_link, beside_link]
  rfl

/-! ### Edges of a state just added -/

theorem link_addState_new (m : Automaton) (s : State) (target : Nat) :
    (m.addState s).link m.size target = m.addState (s.link target) := by
  refine ext_state? ?_ rfl rfl
  intro id
  rw [state?_link, state?_addState, state?_addState]
  by_cases new : id = m.size <;> simp [new]

theorem link_addState_of_ne (old : source ≠ m.size) (s : State) (target : Nat) :
    (m.addState s).link source target = (m.link source target).addState s := by
  refine ext_state? ?_ rfl rfl
  intro id
  rw [state?_link, state?_addState, state?_addState, state?_link, size_link]
  by_cases same : id = source
  · subst same
    rw [if_pos rfl, if_neg old, if_neg old, if_pos rfl]
  · rw [if_neg same, if_neg same]

/-! ### What each wiring adds -/

/-- An edge is added where there is room for it. -/
theorem connectAll_cons_of_room (known : m.state? source = some s)
    (room : s.edges.length < s.capacity) (target : Nat) (rest : List (Nat × Nat)) :
    m.connectAll ((source, target) :: rest) = (m.link source target).connectAll rest := by
  rw [connectAll, connect_of_room known room]
  rfl

theorem wire_literal (m : Automaton) (c : Char) :
    m.wire (.literal m.size c) = .ok (m.addSilent.addLabeled c m.size) := by
  have added := connect_addState_labeled m.addSilent c m.size
  rw [addSilent, size_addState] at added
  simp only [wire, Wiring.literal, List.foldl_cons, List.foldl_nil, connectAll, added]
  rfl

theorem wire_concat (first second : Fragment)
    (free : m.state? first.accept = some .silent) :
    m.wire (.concat first second) = .ok (m.link first.accept second.start) :=
  connectAll_cons_of_room free Nat.two_pos second.start []

/-- The new start state of a fragment takes both its edges. -/
theorem connectAll_new_start (m : Automaton) (first second : Nat) (rest : List (Nat × Nat)) :
    (m.addSilent.addSilent).connectAll
        ((m.size + 1, first) :: (m.size + 1, second) :: rest) =
      (m.addSilent.addState { edges := [first, second] }).connectAll rest := by
  have link_new (s : State) (target : Nat) :
      (m.addSilent.addState s).link (m.size + 1) target =
        m.addSilent.addState (s.link target) := by
    have h := link_addState_new m.addSilent s target
    rwa [addSilent, size_addState] at h
  have newest (s : State) : (m.addSilent.addState s).state? (m.size + 1) = some s := by
    rw [state?_addState, addSilent, size_addState, if_pos rfl]
  have once := connectAll_cons_of_room (newest .silent) Nat.two_pos first
    ((m.size + 1, second) :: rest)
  have twice :=
    connectAll_cons_of_room (newest (State.silent.link first)) Nat.one_lt_two second rest
  rw [link_new] at once twice
  exact once.trans twice

/-- A state that was there before the ends of a fragment takes an edge. -/
theorem connectAll_old (known : m.state? source = some s) (room : s.edges.length < s.capacity)
    (new : State) (rest : List (Nat × Nat)) :
    (m.addSilent.addState new).connectAll ((source, target) :: rest) =
      ((m.link source target).addSilent.addState new).connectAll rest := by
  have lt := lt_size_of_state? known
  have kept : (m.addSilent.addState new).state? source = some s := by
    rw [state?_addState, addSilent, size_addState, if_neg (by omega), state?_addState,
      if_neg (by omega), known]
  rw [connectAll_cons_of_room kept room, addSilent, link_addState_of_ne, link_addState_of_ne]
  · rfl
  · omega
  · rw [size_addState]
    omega

theorem wire_alternate (first second : Fragment)
    (free : m.state? first.accept = some .silent) (free' : m.state? second.accept = some .silent)
    (apart : second.accept ≠ first.accept) :
    m.wire (.alternate m.size first second) =
      .ok (((m.link first.accept m.size).link second.accept m.size).addSilent.addState
        { edges := [first.start, second.start] }) := by
  have still : (m.link first.accept m.size).state? second.accept = some .silent := by
    rw [state?_link, if_neg apart, free']
  have ends := connectAll_new_start m first.start second.start
    [(first.accept, m.size), (second.accept, m.size)]
  rw [connectAll_old free Nat.two_pos, connectAll_old still Nat.two_pos] at ends
  exact ends

theorem wire_star (inner : Fragment) (free : m.state? inner.accept = some .silent) :
    m.wire (.star m.size inner) =
      .ok (((m.link inner.accept inner.start).link inner.accept m.size).addSilent.addState
        { edges := [inner.start, m.size] }) := by
  have once : (m.link inner.accept inner.start).state? inner.accept =
      some (State.silent.link inner.start) := by
    rw [state?_link, if_pos rfl, free]
    rfl
  have ends := connectAll_new_start m inner.start m.size
    [(inner.accept, inner.start), (inner.accept, m.size)]
  rw [connectAll_old free Nat.two_pos, connectAll_old once Nat.one_lt_two] at ends
  exact ends

end Automaton

namespace Assembly

variable {base : Assembly} {x y : Automaton} {limit : Option Nat} {position : Nat}

/-- Sets a finished automaton beside all that is there, as the last fragment. -/
def push (a : Assembly) (m : Automaton) : Assembly where
  automaton := a.automaton.beside m
  fragments := m.ends a.automaton.size :: a.fragments

/-- The assembly itself, if it keeps the limit. -/
def within (a : Assembly) (limit : Option Nat) : Except Error Assembly :=
  (a.checkSize limit).map fun _ => a

/-- One finished automaton for each expression, the last of which comes first. -/
def ofExprs : List Expr → Assembly
  | [] => {}
  | e :: below => (ofExprs below).push e.automaton

@[simp] theorem automaton_push (a : Assembly) (m : Automaton) :
    (a.push m).automaton = a.automaton.beside m := rfl

@[simp] theorem fragments_push (a : Assembly) (m : Automaton) :
    (a.push m).fragments = m.ends a.automaton.size :: a.fragments := rfl

theorem length_fragments_ofExprs (stack : List Expr) :
    (ofExprs stack).fragments.length = stack.length := by
  induction stack with
  | nil => rfl
  | cons e below ih => rw [ofExprs, fragments_push, List.length_cons, ih, List.length_cons]

/-! ### Placing one token -/

theorem result_place_of_wiring {a : Assembly} {token : Token} {w : Wiring}
    {rest : List Fragment} {m : Automaton} (found : a.wiring position token = .ok (w, rest))
    (wired : a.automaton.wire w = .ok m) :
    (a.place limit position token).result = within ⟨m, w.fragment :: rest⟩ limit := by
  rw [result_place, found]
  show (a.automaton.wire w >>= _) = _
  rw [wired]
  show (checkSize ⟨m, w.fragment :: rest⟩ limit >>= _) = _
  rw [within]
  cases checkSize ⟨m, w.fragment :: rest⟩ limit <;> rfl

theorem result_place_literal (base : Assembly) (c : Char) :
    (base.place limit position (.literal c)).result = (base.push (.literal c)).within limit := by
  rw [result_place_of_wiring rfl (base.automaton.wire_literal c)]
  simp only [push, Automaton.beside_literal]
  rfl

/-- The accept state of an automaton that has been pushed is still without edges. -/
theorem state?_push_accept (base : Assembly) (hx : x.IsOperand) :
    (base.push x).automaton.state? (base.automaton.size + x.accept) = some .silent := by
  rw [automaton_push, Automaton.state?_beside_add, hx.state?_accept]
  rfl

theorem state?_push_push_accept (base : Assembly) (hx : x.IsOperand) (y : Automaton) :
    ((base.push x).push y).automaton.state? (base.automaton.size + x.accept) = some .silent := by
  have known := state?_push_accept base hx
  rw [automaton_push, Automaton.state?_beside_of_lt (Automaton.lt_size_of_state? known), known]

theorem result_place_concat (hx : x.IsOperand) :
    (((base.push x).push y).place limit position (.operator .concat)).result =
      (base.push (x.concat y)).within limit := by
  have wired := Automaton.wire_concat (x.ends base.automaton.size)
    (y.ends (base.push x).automaton.size) (state?_push_push_accept base hx y)
  rw [result_place_of_wiring rfl wired]
  simp only [push, Wiring.concat, Automaton.beside_concat, Automaton.size_beside, Automaton.ends,
    Nat.add_assoc, Automaton.start_concat, Automaton.accept_concat]

theorem result_place_alternate (hx : x.IsOperand) (hy : y.IsOperand) :
    (((base.push x).push y).place limit position (.operator .alternate)).result =
      (base.push (x.alternate y)).within limit := by
  have apart : (base.push x).automaton.size + y.accept ≠ base.automaton.size + x.accept := by
    have := hx.accept_lt
    rw [automaton_push, Automaton.size_beside]
    omega
  have wired := Automaton.wire_alternate (x.ends base.automaton.size)
    (y.ends (base.push x).automaton.size) (state?_push_push_accept base hx y)
    (state?_push_accept (base.push x) hy) apart
  rw [result_place_of_wiring rfl wired]
  simp only [push, Wiring.alternate, Automaton.beside_alternate, Automaton.size_beside,
    Automaton.ends, Nat.add_assoc, Automaton.start_alternate, Automaton.accept_alternate]

theorem result_place_star (hx : x.IsOperand) :
    ((base.push x).place limit position (.operator .star)).result =
      (base.push x.star).within limit := by
  have wired := Automaton.wire_star (x.ends base.automaton.size) (state?_push_accept base hx)
  rw [result_place_of_wiring rfl wired]
  simp only [push, Wiring.star, Automaton.beside_star, Automaton.size_beside, Automaton.ends,
    Nat.add_assoc, Automaton.start_star, Automaton.accept_star]

/-! ### Placing tokens combines expressions -/

/-- Placing a token does to the automata what it does to the expressions. -/
theorem result_place_of_reduce? {token : Token} {stack stack' : List Expr}
    (h : Expr.reduce? token stack = some stack') :
    ((ofExprs stack).place limit position token).result = (ofExprs stack').within limit := by
  cases token with
  | literal c =>
    cases h
    exact result_place_literal (ofExprs stack) c
  | operator op =>
    cases op with
    | concat =>
      rcases stack with _ | ⟨b, _ | ⟨a, stack⟩⟩
      · cases h
      · cases h
      · cases h
        exact result_place_concat a.isOperand_automaton
    | alternate =>
      rcases stack with _ | ⟨b, _ | ⟨a, stack⟩⟩
      · cases h
      · cases h
      · cases h
        exact result_place_alternate a.isOperand_automaton b.isOperand_automaton
    | star =>
      rcases stack with _ | ⟨a, stack⟩
      · cases h
      · cases h
        exact result_place_star a.isOperand_automaton

/-- An operator without enough expressions before it is not placed. -/
theorem result_place_of_reduce?_eq_none {op : Operator} {stack : List Expr}
    (h : Expr.reduce? (.operator op) stack = none) :
    ((ofExprs stack).place limit position (.operator op)).result =
      .error (.missingOperand op position) := by
  have few : Wiring.ofOperator? (ofExprs stack).automaton.size op (ofExprs stack).fragments =
      none := by
    rw [Wiring.ofOperator?_eq_none_iff, length_fragments_ofExprs]
    exact Expr.reduce?_eq_none_iff.1 h
  rw [result_place, wiring, few]
  rfl

/-- Without a limit, placing all tokens succeeds where combining expressions does, and with the
automata of the same expressions. -/
theorem result_placeAll_eq_ok_iff (position : Nat) (tokens : List Token) (stack : List Expr)
    {a : Assembly} :
    ((ofExprs stack).placeAll none position tokens).result = .ok a ↔
      ∃ stack', Expr.reduceAll? tokens stack = some stack' ∧ a = ofExprs stack' := by
  induction tokens generalizing stack position with
  | nil =>
    rw [result_placeAll_nil, Except.ok.injEq]
    simp [Expr.reduceAll?, eq_comm]
  | cons token rest ih =>
    rw [result_placeAll_cons, Expr.reduceAll?]
    cases step : Expr.reduce? token stack with
    | some next =>
      rw [result_place_of_reduce? step]
      exact ih (position + 1) next
    | none =>
      cases token with
      | literal c => cases step
      | operator op =>
        rw [result_place_of_reduce?_eq_none step]
        simp [bind, Except.bind]

/-- Only a single expression is finished. -/
theorem finish_ofExprs_eq_ok_iff {stack : List Expr} {m : Automaton} :
    (ofExprs stack).finish = .ok m ↔ ∃ e, stack = [e] ∧ m = e.automaton := by
  match stack with
  | [] => simp [finish, ofExprs]
  | [e] =>
    have single : (ofExprs [e]).finish = .ok e.automaton := by
      show Except.ok ((Automaton.empty.beside e.automaton).setFragment (e.automaton.ends 0)) = _
      rw [Automaton.ends, Nat.zero_add, Nat.zero_add, Automaton.setFragment_beside_empty]
    simp [single, eq_comm]
  | e :: f :: below => simp [finish, ofExprs]

/-- The number of fragments is all that can be wrong at the end. -/
theorem finish_eq_error_iff {a : Assembly} {e : Error} :
    a.finish = .error e ↔ a.fragments.length ≠ 1 ∧ e = .dangling a.fragments.length := by
  unfold finish
  split
  next fragment single => simp [single]
  next several =>
    have ne : a.fragments.length ≠ 1 := by
      intro one
      obtain ⟨fragment, single⟩ := List.length_eq_one_iff.1 one
      exact several fragment single
    simp [ne, eq_comm]

end Assembly

namespace Postorder

/-- A post-order has an automaton exactly if it is that of an expression, and then it has the
automaton of this expression. -/
theorem result_assemble_eq_ok_iff {p : Postorder} {m : Automaton} :
    (p.assemble none).result = .ok m ↔ ∃ e : Expr, p = e.postorder ∧ m = e.automaton := by
  rw [result_assemble]
  constructor
  · intro h
    cases run : (Assembly.placeAll none {} 0 p.tokens).result with
    | error e =>
      rw [run] at h
      cases h
    | ok a =>
      rw [run] at h
      obtain ⟨stack, read, rfl⟩ := (Assembly.result_placeAll_eq_ok_iff 0 p.tokens []).1 run
      obtain ⟨e, rfl, rfl⟩ := Assembly.finish_ofExprs_eq_ok_iff.1 h
      refine ⟨e, ?_, rfl⟩
      rw [Expr.postorder, ← Expr.reduceAll?_eq_some_singleton_iff.1 read]
  · intro written
    obtain ⟨e, rfl, rfl⟩ := written
    have run : (Assembly.placeAll none {} 0 e.postorder.tokens).result =
        .ok (Assembly.ofExprs [e]) :=
      (Assembly.result_placeAll_eq_ok_iff 0 e.tokens []).2 ⟨[e], Expr.reduceAll?_tokens e [], rfl⟩
    rw [run]
    exact Assembly.finish_ofExprs_eq_ok_iff.2 ⟨e, rfl, rfl⟩

theorem result_assemble_postorder (e : Expr) :
    (e.postorder.assemble none).result = .ok e.automaton :=
  result_assemble_eq_ok_iff.2 ⟨e, rfl, rfl⟩

end Postorder

end WholeMatch
