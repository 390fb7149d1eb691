import WholeMatch.Pattern
import WholeMatch.Proofs.Segments

/-!
# Every edge finds room

An edge from a state that does not exist would be passed over without a word, and one from a state
that has all its edges would break off the assembly. Neither ever happens
(`Assembly.hasRoom_of_wiring`): a token adds edges to the states it has just added and to the accept
states of the fragments it takes off, which have none. So assembling a post-order, and with it
building a pattern, fails only for the reasons that lie in the tokens, the limit or the parentheses
(`Postorder.assemble_finds_room`).
-/

namespace WholeMatch

namespace Automaton

variable {m m' : Automaton} {source target : Nat}

/-- The state exists and can take one more edge. -/
def HasRoom (m : Automaton) (source : Nat) : Prop :=
  ∃ s, m.state? source = some s ∧ s.edges.length < s.capacity

theorem hasRoom_of_connect (known : source < m.size) (h : m.connect source target = .ok m') :
    m.HasRoom source := by
  obtain ⟨s, found⟩ := Option.isSome_iff_exists.1 (state?_isSome_iff.2 known)
  exact ⟨s, found, (connect_eq_ok_iff.1 h).1 s found⟩

theorem size_of_connect (h : m.connect source target = .ok m') : m'.size = m.size := by
  obtain ⟨_, rfl⟩ := connect_eq_ok_iff.1 h
  exact size_link m source target

/-- Where edges can be added one after the other, each of them from a state that exists, each finds
room when its turn comes. -/
theorem hasRoom_of_connectAll {before after : List (Nat × Nat)}
    (h : m.connectAll (before ++ (source, target) :: after) = .ok m') (known : source < m.size) :
    ∃ between, m.connectAll before = .ok between ∧ between.HasRoom source := by
  induction before generalizing m with
  | nil =>
    obtain ⟨_, added, _⟩ := bind_eq_ok_iff.1 h
    exact ⟨m, rfl, hasRoom_of_connect known added⟩
  | cons edge before ih =>
    obtain ⟨next, added, later⟩ := bind_eq_ok_iff.1 h
    rw [← size_of_connect added] at known
    obtain ⟨between, placed, room⟩ := ih later known
    exact ⟨between, bind_eq_ok_iff.2 ⟨next, added, placed⟩, room⟩

theorem size_foldl_addState (m : Automaton) (states : List State) :
    (states.foldl addState m).size = m.size + states.length := by
  induction states generalizing m with
  | nil => rfl
  | cons s states ih =>
    rw [List.foldl_cons, ih, size_addState, List.length_cons]
    omega

end Automaton

/-! ### Taking operands off -/

/-- How a token joins the operands taken off for it, the first of them first; nothing if they are
not as many as the token combines. -/
def Wiring.ofOperands? (size : Nat) : Token → List Fragment → Option Wiring
  | .literal c, [] => some (literal size c)
  | .operator .concat, [first, second] => some (concat first second)
  | .operator .alternate, [first, second] => some (alternate size first second)
  | .operator .star, [inner] => some (star size inner)
  | _, _ => none

namespace Assembly

variable {a b : Assembly} {limit : Option Nat} {position : Nat} {token : Token} {w : Wiring}
  {operands rest : List Fragment}

/-- Takes off as many fragments as the token combines, the first of them first, and gives the ones
below them; nothing if there are too few. -/
def operands? (a : Assembly) (token : Token) : Option (List Fragment × List Fragment) :=
  if a.fragments.length < token.arity then none
  else some ((a.fragments.take token.arity).reverse, a.fragments.drop token.arity)

/-- The operands taken off always fit the token, and it is wired to them. -/
theorem wiring_of_operands? (found : a.operands? token = some (operands, rest)) :
    ∃ w, Wiring.ofOperands? a.automaton.size token operands = some w ∧
      a.wiring position token = .ok (w, rest) := by
  obtain ⟨m, fragments⟩ := a
  simp only [operands?, Option.ite_none_left_eq_some, Option.some.injEq, Prod.mk.injEq] at found
  obtain ⟨enough, rfl, rfl⟩ := found
  cases token with
  | literal c => exact ⟨_, rfl, rfl⟩
  | operator op =>
    cases op with
    | concat =>
      rcases fragments with _ | ⟨second, _ | ⟨first, rest⟩⟩
      · exact absurd Nat.two_pos enough
      · exact absurd Nat.one_lt_two enough
      · exact ⟨_, rfl, rfl⟩
    | alternate =>
      rcases fragments with _ | ⟨second, _ | ⟨first, rest⟩⟩
      · exact absurd Nat.two_pos enough
      · exact absurd Nat.one_lt_two enough
      · exact ⟨_, rfl, rfl⟩
    | star =>
      rcases fragments with _ | ⟨inner, rest⟩
      · exact absurd Nat.one_pos enough
      · exact ⟨_, rfl, rfl⟩

theorem wiring_of_operands?_eq_none (few : a.operands? token = none) :
    ∃ op, token = .operator op ∧
      a.wiring position token = .error (.missingOperand op position) := by
  simp only [operands?, ite_eq_left_iff, reduceCtorEq, imp_false, Nat.not_lt, Nat.not_le] at few
  cases token with
  | literal c => exact absurd few (Nat.not_lt_zero _)
  | operator op =>
    refine ⟨op, rfl, ?_⟩
    rw [wiring, Wiring.ofOperator?_eq_none_iff.2 few]

/-! ### Where edges are added -/

/-- Edges are added to new states and to the ends of fragments. -/
theorem source_lt_of_wiring (ends : ∀ f ∈ a.fragments, f.accept < a.automaton.size)
    (found : a.wiring position token = .ok (w, rest)) :
    ∀ edge ∈ w.edges, edge.1 < a.automaton.size + w.states.length := by
  obtain ⟨m, fragments⟩ := a
  replace ends : ∀ f ∈ fragments, f.accept < m.size := ends
  cases token with
  | literal c =>
    cases found
    simp [Wiring.literal]
  | operator op =>
    cases op with
    | concat =>
      rcases fragments with _ | ⟨second, _ | ⟨first, fragments⟩⟩ <;> cases found
      have first_lt := ends first (by simp)
      simpa [Wiring.concat] using first_lt
    | alternate =>
      rcases fragments with _ | ⟨second, _ | ⟨first, fragments⟩⟩ <;> cases found
      have first_lt := ends first (by simp)
      have second_lt := ends second (by simp)
      simpa [Wiring.alternate] using ⟨Nat.lt_add_right 2 first_lt, Nat.lt_add_right 2 second_lt⟩
    | star =>
      rcases fragments with _ | ⟨inner, fragments⟩ <;> cases found
      have inner_lt := ends inner (by simp)
      simpa [Wiring.star] using Nat.lt_add_right 2 inner_lt

/-- A token that finds its operands is wired without an error. -/
theorem exists_wire_of_wiring {stack : List Expr}
    (found : (ofExprs stack).wiring position token = .ok (w, rest)) :
    ∃ m, (ofExprs stack).automaton.wire w = .ok m := by
  have placed : ∃ next, ((ofExprs stack).place none position token).result = .ok next := by
    cases reduced : Expr.reduce? token stack with
    | some stack' => exact ⟨ofExprs stack', result_place_of_reduce? reduced⟩
    | none =>
      cases token with
      | literal c => cases reduced
      | operator op =>
        have few := Expr.reduce?_eq_none_iff.1 reduced
        rw [← length_fragments_ofExprs] at few
        rw [wiring, Wiring.ofOperator?_eq_none_iff.2 few] at found
        cases found
  obtain ⟨next, placed⟩ := placed
  obtain ⟨w', rest', m, found', wired, _⟩ := result_place_eq_ok_iff.1 placed
  rw [found, Except.ok.injEq, Prod.mk.injEq] at found'
  obtain ⟨rfl, rfl⟩ := found'
  exact ⟨m, wired⟩

/-- Each edge that a token adds finds its source there and with room, whatever stands before. -/
theorem hasRoom_of_wiring {stack : List Expr} {before after : List (Nat × Nat)}
    {source target : Nat}
    (found : (ofExprs stack).wiring position token = .ok (w, rest))
    (parts : w.edges = before ++ (source, target) :: after) :
    ∃ m, (w.states.foldl Automaton.addState (ofExprs stack).automaton).connectAll before = .ok m ∧
      m.HasRoom source := by
  obtain ⟨m, wired⟩ := exists_wire_of_wiring found
  rw [Automaton.wire, parts] at wired
  apply Automaton.hasRoom_of_connectAll wired
  rw [Automaton.size_foldl_addState]
  apply source_lt_of_wiring (dividedInto_ofExprs stack).accept_lt found (source, target)
  rw [parts]
  exact List.mem_append_right before List.mem_cons_self

/-! ### What can go wrong -/

/-- Whatever tokens have been placed, the fragments are the automata of expressions. -/
theorem exists_ofExprs_of_result_placeAll {tokens : List Token} (stack : List Expr)
    (h : ((ofExprs stack).placeAll limit position tokens).result = .ok b) :
    ∃ stack', b = ofExprs stack' := by
  obtain ⟨stack', _, same⟩ :=
    (result_placeAll_eq_ok_iff position tokens stack).1 (result_placeAll_none_of_ok h)
  exact ⟨stack', same⟩

theorem ne_stateFull_of_result_place {stack : List Expr} {e : Error}
    (h : ((ofExprs stack).place limit position token).result = .error e) (state edges : Nat) :
    e ≠ .stateFull state edges := by
  cases reduced : Expr.reduce? token stack with
  | some stack' =>
    rw [result_place_of_reduce? reduced] at h
    obtain ⟨bound, _, rfl⟩ := exists_of_within_eq_error h
    exact nofun
  | none =>
    cases token with
    | literal c => cases reduced
    | operator op =>
      rw [result_place_of_reduce?_eq_none reduced] at h
      cases h
      exact nofun

theorem ne_stateFull_of_result_placeAll {tokens : List Token} {e : Error} (stack : List Expr)
    (h : ((ofExprs stack).placeAll limit position tokens).result = .error e) (state edges : Nat) :
    e ≠ .stateFull state edges := by
  induction tokens generalizing stack position with
  | nil => cases h
  | cons token tokens ih =>
    rw [result_placeAll_cons] at h
    rcases bind_eq_error_iff.1 h with failed | ⟨next, placed, later⟩
    · exact ne_stateFull_of_result_place failed state edges
    · have placed' : ((ofExprs stack).placeAll limit position [token]).result = .ok next := by
        rw [result_placeAll_cons, placed]
        rfl
      obtain ⟨stack', rfl⟩ := exists_ofExprs_of_result_placeAll stack placed'
      exact ih stack' later

end Assembly

namespace Postorder

variable {p : Postorder} {limit : Option Nat} {state edges : Nat}

theorem result_assemble_ne_stateFull :
    (p.assemble limit).result ≠ .error (.stateFull state edges) := by
  intro h
  rw [result_assemble] at h
  rcases bind_eq_error_iff.1 h with failed | ⟨a, _, failed⟩
  · exact Assembly.ne_stateFull_of_result_placeAll [] failed state edges rfl
  · cases (Assembly.finish_eq_error_iff.1 failed).2

theorem result_ofPattern_ne_stateFull {pattern : String} :
    (ofPattern pattern).result ≠ .error (.stateFull state edges) := by
  rw [result_ofPattern]
  split <;> simp

end Postorder

theorem Draft.result_build_ne_stateFull {d : Draft} {state edges : Nat} :
    d.build.result ≠ .error (.stateFull state edges) := by
  intro h
  rw [result_build] at h
  rcases bind_eq_error_iff.1 h with failed | ⟨p, _, later⟩
  · exact Postorder.result_ofPattern_ne_stateFull failed
  · rcases bind_eq_error_iff.1 later with failed | ⟨m, _, failed⟩
    · exact Postorder.result_assemble_ne_stateFull failed
    · cases failed

namespace Postorder

/-- Before each token, after all before it have been placed under any limit: if there are enough
fragments, those taken off fit the token, and each of its edges in turn finds its source there and
with room for it; if not, the operand is missing, and nothing else is done. So no state is ever
overfilled: not when assembling tokens in any order, not when building any draft, with a limit or
without, and not when building any text. -/
theorem assemble_finds_room (p : Postorder) (limit : Option Nat) :
    (∀ first token rest a, p.tokens = first ++ token :: rest →
      (Assembly.placeAll limit {} 0 first).result = .ok a →
      (∀ operands below, a.operands? token = some (operands, below) →
        ∃ w, Wiring.ofOperands? a.automaton.size token operands = some w ∧
          a.wiring first.length token = .ok (w, below) ∧
          ∀ before source target after, w.edges = before ++ (source, target) :: after →
            ∃ m, (w.states.foldl Automaton.addState a.automaton).connectAll before = .ok m ∧
              m.HasRoom source) ∧
      (a.operands? token = none →
        ∃ op, token = .operator op ∧
          a.wiring first.length token = .error (.missingOperand op first.length))) ∧
    (∀ state edges, (p.assemble limit).result ≠ .error (.stateFull state edges)) ∧
    (∀ (d : Draft) state edges, d.build.result ≠ .error (.stateFull state edges)) ∧
    (∀ text state edges, Pattern.ofText text ≠ .error (.stateFull state edges)) := by
  refine ⟨?_, fun _ _ => result_assemble_ne_stateFull, fun _ _ _ => Draft.result_build_ne_stateFull,
    fun _ _ _ => Draft.result_build_ne_stateFull⟩
  intro first token rest a _ placed
  obtain ⟨stack, rfl⟩ := Assembly.exists_ofExprs_of_result_placeAll [] placed
  refine ⟨?_, Assembly.wiring_of_operands?_eq_none⟩
  intro operands below found
  obtain ⟨w, fits, wired⟩ := Assembly.wiring_of_operands? found
  refine ⟨w, fits, wired, ?_⟩
  intro before source target after parts
  exact Assembly.hasRoom_of_wiring wired parts

/-- The end of a starred literal takes its second edge beside the first. -/
theorem assemble_finds_room_starred :
    (Assembly.placeAll none {} 0 [.literal 'a']).result = .ok (.ofExprs [.literal 'a']) ∧
      (Assembly.ofExprs [.literal 'a']).operands? (.operator .star) = some ([⟨1, 0⟩], []) ∧
      ∃ m, ((Wiring.star 2 ⟨1, 0⟩).states.foldl Automaton.addState
          (Assembly.ofExprs [.literal 'a']).automaton).connectAll [(3, 1), (3, 2), (0, 1)] = .ok m ∧
        m.HasRoom 0 := by
  have placed : (Assembly.placeAll none {} 0 [.literal 'a']).result =
      .ok (.ofExprs [.literal 'a']) :=
    (Assembly.result_placeAll_eq_ok_iff 0 [.literal 'a'] []).2 ⟨[.literal 'a'], rfl, rfl⟩
  have found : (Assembly.ofExprs [.literal 'a']).operands? (.operator .star) =
      some ([⟨1, 0⟩], []) := rfl
  refine ⟨placed, found, ?_⟩
  obtain ⟨w, fits, _, room⟩ :=
    ((assemble_finds_room ⟨[.literal 'a', .operator .star]⟩ none).1 _ _ _ _ rfl placed).1 _ _ found
  cases fits
  have size : (Assembly.ofExprs [.literal 'a']).automaton.size = 2 := by
    rw [Assembly.ofExprs, Assembly.automaton_push, Automaton.size_beside, Expr.size_automaton]
    rfl
  refine room [(3, 1), (3, 2), (0, 1)] 0 2 [] ?_
  rw [size]
  rfl

end Postorder

end WholeMatch
