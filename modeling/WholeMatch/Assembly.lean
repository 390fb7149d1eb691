import WholeMatch.Journal

/-!
# Assembling an automaton

Each token of a post-order becomes a fragment: a literal a new one, an operator one that joins the
fragments of its operands, which are the last ones not yet used. The `Wiring` of a token says which
states and edges that takes. Every token but a concatenation adds two states: the end of the new
fragment and then its start.

A post-order that leaves exactly one fragment is assembled into an automaton that runs from the
start of this fragment to its end.
-/

namespace WholeMatch

/-- What placing a token adds to an automaton, and the fragment it becomes. -/
structure Wiring where
  /-- New states, still without edges. -/
  states : List State
  /-- New edges, in the order in which they are added. -/
  edges : List (Nat × Nat)
  fragment : Fragment
  deriving DecidableEq

namespace Wiring

/-- From the start, consuming `c` leads to the end. -/
def literal (size : Nat) (c : Char) : Wiring where
  states := [.silent, .labeled c]
  edges := [(size + 1, size)]
  fragment := ⟨size + 1, size⟩

/-- The end of the first operand leads to the start of the second. -/
def concat (first second : Fragment) : Wiring where
  states := []
  edges := [(first.accept, second.start)]
  fragment := ⟨first.start, second.accept⟩

/-- The start leads into both operands, and both lead to the end. -/
def alternate (size : Nat) (first second : Fragment) : Wiring where
  states := [.silent, .silent]
  edges := [(size + 1, first.start), (size + 1, second.start), (first.accept, size),
    (second.accept, size)]
  fragment := ⟨size + 1, size⟩

/-- The start leads into the operand or past it, and after the operand it can be entered again or
left. -/
def star (size : Nat) (inner : Fragment) : Wiring where
  states := [.silent, .silent]
  edges := [(size + 1, inner.start), (size + 1, size), (inner.accept, inner.start),
    (inner.accept, size)]
  fragment := ⟨size + 1, size⟩

/-- How an operator joins the last fragments in an automaton of this size, and the fragments it
leaves; nothing if there are too few. -/
def ofOperator? (size : Nat) : Operator → List Fragment → Option (Wiring × List Fragment)
  | .concat, second :: first :: rest => some (concat first second, rest)
  | .alternate, second :: first :: rest => some (alternate size first second, rest)
  | .star, inner :: rest => some (star size inner, rest)
  | _, _ => none

theorem ofOperator?_eq_none_iff {size : Nat} {op : Operator} {fragments : List Fragment} :
    ofOperator? size op fragments = none ↔ fragments.length < op.arity := by
  cases op <;> rcases fragments with _ | ⟨second, _ | ⟨first, rest⟩⟩ <;>
    simp [ofOperator?, Operator.arity]

end Wiring

/-- Adds the states of a wiring and then its edges. -/
def Automaton.wire (m : Automaton) (w : Wiring) : Except Error Automaton :=
  (w.states.foldl addState m).connectAll w.edges

/-- An automaton under construction, and the fragments in it that no operator has used yet, the
last one first. -/
structure Assembly where
  automaton : Automaton := .empty
  fragments : List Fragment := []
  deriving DecidableEq

namespace Assembly

/-- How to place a token, and the fragments it leaves. -/
def wiring (a : Assembly) (position : Nat) : Token → Except Error (Wiring × List Fragment)
  | .literal c => .ok (.literal a.automaton.size c, a.fragments)
  | .operator op =>
    match Wiring.ofOperator? a.automaton.size op a.fragments with
    | some found => .ok found
    | none => .error (.missingOperand op position)

/-- Checks that a limit on the number of states is kept. -/
def checkSize (a : Assembly) : Option Nat → Except Error Unit
  | none => .ok ()
  | some limit => if limit < a.automaton.size then .error (.tooComplex limit) else .ok ()

/-- Places the token at a position. -/
def place (limit : Option Nat) (a : Assembly) (position : Nat) (token : Token) :
    Traced Assembly := do
  let (wiring, rest) ← .ofExcept (a.wiring position token)
  let automaton ← .ofExcept (a.automaton.wire wiring)
  let placed : Assembly := ⟨automaton, wiring.fragment :: rest⟩
  .tell (.placed token position wiring.fragment placed.fragments.length)
  .ofExcept (placed.checkSize limit)
  return placed

/-- Places tokens one after the other, the first of them at a position. -/
def placeAll (limit : Option Nat) (a : Assembly) (position : Nat) : List Token → Traced Assembly
  | [] => pure a
  | token :: rest => do
    let placed ← a.place limit position token
    placed.placeAll limit (position + 1) rest

/-- Placing a token, without the journal. -/
theorem result_place (limit : Option Nat) (a : Assembly) (position : Nat) (token : Token) :
    (a.place limit position token).result = (do
      let (wiring, rest) ← a.wiring position token
      let automaton ← a.automaton.wire wiring
      checkSize ⟨automaton, wiring.fragment :: rest⟩ limit
      return ⟨automaton, wiring.fragment :: rest⟩) := by
  simp [place]
  rfl

theorem result_placeAll_nil (limit : Option Nat) (a : Assembly) (position : Nat) :
    (a.placeAll limit position []).result = .ok a := rfl

theorem result_placeAll_cons (limit : Option Nat) (a : Assembly) (position : Nat) (token : Token)
    (rest : List Token) :
    (a.placeAll limit position (token :: rest)).result = (do
      let placed ← (a.place limit position token).result
      (placed.placeAll limit (position + 1) rest).result) := by
  simp [placeAll]

/-- Tokens can be placed in two parts. -/
theorem result_placeAll_append (limit : Option Nat) (a : Assembly) (position : Nat)
    (first second : List Token) :
    (a.placeAll limit position (first ++ second)).result = (do
      let placed ← (a.placeAll limit position first).result
      (placed.placeAll limit (position + first.length) second).result) := by
  induction first generalizing a position with
  | nil => rfl
  | cons token rest ih =>
    simp only [List.cons_append, result_placeAll_cons, ih, List.length_cons]
    cases (a.place limit position token).result with
    | error e => rfl
    | ok placed => simp [bind, Except.bind, Nat.add_assoc, Nat.add_comm 1]

/-- The automaton of the only fragment. -/
def finish (a : Assembly) : Except Error Automaton :=
  match a.fragments with
  | [fragment] => .ok (a.automaton.setFragment fragment)
  | fragments => .error (.dangling fragments.length)

end Assembly

/-- The automaton of an expression in post-order, with at most `limit` states. -/
def Postorder.assemble (p : Postorder) (limit : Option Nat) : Traced Automaton := do
  let assembly ← Assembly.placeAll limit {} 0 p.tokens
  let automaton ← .ofExcept assembly.finish
  .tell (.assembled p automaton.size ⟨automaton.start, automaton.accept⟩)
  return automaton

/-- Assembling, without the journal. -/
theorem Postorder.result_assemble (p : Postorder) (limit : Option Nat) :
    (p.assemble limit).result = (do
      let assembly ← (Assembly.placeAll limit {} 0 p.tokens).result
      assembly.finish) := by
  simp only [assemble, Traced.result_bind, Traced.result_ofExcept, Traced.result_tell,
    Traced.result_pure]
  cases (Assembly.placeAll limit {} 0 p.tokens).result with
  | error e => rfl
  | ok a => cases h : a.finish <;> simp [bind, Except.bind, h]

end WholeMatch
