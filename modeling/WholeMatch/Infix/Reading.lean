import WholeMatch.Infix.Symbol
import WholeMatch.Journal

/-!
# Reading a pattern

A pattern is read once from left to right. A literal is emitted at once; an operator waits on a
stack until its operands have been emitted: it leaves when a strictly weaker operator comes, when
its group is closed or at the end of the pattern. Operators of equal strength wait together, so
the later one leaves first and chains associate to the right. An open group shields the operators
below it.

An `Emission` says when and why a token left, so that the order of the output can be described
without the stack.
-/

namespace WholeMatch

namespace Infix

/-- Something that waits on the stack, and where the pattern has it. -/
inductive Pending where
  /-- A group that has been opened and not yet closed. -/
  | group (position : Nat)
  /-- An operator whose last operand is not complete. -/
  | operator (op : Operator) (position : Nat)
  deriving DecidableEq

/-- A token that has left for the output. -/
structure Emission where
  token : Token
  /-- Where the pattern has the token. -/
  origin : Nat
  /-- Where the pattern has the symbol that made it leave; its length, if that was the end. -/
  time : Nat
  /-- The weaker operator that made it leave, if it was one. -/
  displacer : Option Operator
  deriving DecidableEq

/-- What reading a pattern yields: the tokens that left, and a parenthesis without partner at
which the reading broke off. -/
structure Reading where
  emissions : List Emission
  unbalanced : Option Nat
  deriving DecidableEq

/-- Takes operators off the stack as long as they may leave; an open group always stays. -/
def popWhile (leaves : Operator → Bool) : List Pending → List (Operator × Nat) × List Pending
  | [] => ([], [])
  | .group position :: below => ([], .group position :: below)
  | .operator op position :: below =>
    if leaves op then
      let (popped, rest) := popWhile leaves below
      ((op, position) :: popped, rest)
    else ([], .operator op position :: below)

/-- Nothing is lost or reordered on the stack. -/
theorem popWhile_append (leaves : Operator → Bool) (stack : List Pending) :
    (popWhile leaves stack).1.map (fun p => .operator p.1 p.2) ++ (popWhile leaves stack).2 =
      stack := by
  fun_induction popWhile leaves stack <;> simp_all

/-- All that leave may leave. -/
theorem leaves_of_mem_popWhile {leaves : Operator → Bool} {stack : List Pending}
    {p : Operator × Nat} (h : p ∈ (popWhile leaves stack).1) : leaves p.1 := by
  fun_induction popWhile leaves stack <;> grind

/-- Operators that leave together. -/
def release (time : Nat) (displacer : Option Operator) (popped : List (Operator × Nat)) :
    List Emission :=
  popped.map fun (op, origin) => ⟨.operator op, origin, time, displacer⟩

namespace Reading

/-- A reading that comes after some emissions. -/
def after (emitted : List Emission) (later : Reading) : Reading :=
  { later with emissions := emitted ++ later.emissions }

/-- Reads the rest of a pattern from a position on. -/
def ofRest (stack : List Pending) (position : Nat) : List Char → Reading
  | [] =>
    let (popped, below) := popWhile (fun _ => true) stack
    let emitted := release position none popped
    match below with
    | .group opened :: _ => ⟨emitted, some opened⟩
    | _ => ⟨emitted, none⟩
  | c :: rest =>
    match Symbol.ofChar c with
    | .opening => ofRest (.group position :: stack) (position + 1) rest
    | .closing =>
      let (popped, below) := popWhile (fun _ => true) stack
      let emitted := release position none popped
      match below with
      | .group _ :: outer => after emitted (ofRest outer (position + 1) rest)
      | _ => ⟨emitted, some position⟩
    | .literal l => after [⟨.literal l, position, position, none⟩] (ofRest stack (position + 1) rest)
    | .operator op =>
      let (popped, below) := popWhile (fun top => op.precedence < top.precedence) stack
      after (release position (some op) popped)
        (ofRest (.operator op position :: below) (position + 1) rest)

/-- Reads a whole pattern. -/
def ofPattern (pattern : List Char) : Reading := ofRest [] 0 pattern

/-- The tokens in the order in which they left. -/
def postorder (r : Reading) : Postorder := ⟨r.emissions.map (·.token)⟩

/-- A record for each token that a weaker operator made leave. -/
def displacements (r : Reading) : List Record :=
  r.emissions.filterMap fun e => e.displacer.map (.displaced · e.token e.time)

/-! ### One equation for each kind of symbol -/

theorem ofRest_opening (stack : List Pending) (position : Nat) (rest : List Char) :
    ofRest stack position ('(' :: rest) =
      ofRest (.group position :: stack) (position + 1) rest := by
  simp [ofRest]

theorem ofRest_literal {c : Char} (h : IsLiteral c) (stack : List Pending) (position : Nat)
    (rest : List Char) :
    ofRest stack position (c :: rest) =
      after [⟨.literal c, position, position, none⟩] (ofRest stack (position + 1) rest) := by
  simp [ofRest, Symbol.ofChar_eq_literal_iff.2 ⟨h, rfl⟩]

theorem ofRest_operator (op : Operator) (stack : List Pending) (position : Nat)
    (rest : List Char) :
    ofRest stack position (op.symbol :: rest) =
      let popped := popWhile (fun top => op.precedence < top.precedence) stack
      after (release position (some op) popped.1)
        (ofRest (.operator op position :: popped.2) (position + 1) rest) := by
  simp [ofRest]

theorem emissions_after (emitted : List Emission) (r : Reading) :
    (after emitted r).emissions = emitted ++ r.emissions := rfl

theorem unbalanced_after (emitted : List Emission) (r : Reading) :
    (after emitted r).unbalanced = r.unbalanced := rfl

end Reading

end Infix

/-- Puts a pattern into post-order. The only thing that can be wrong with it here is a parenthesis
without its partner. -/
def Postorder.ofPattern (pattern : String) : Traced Postorder :=
  let reading := Infix.Reading.ofPattern pattern.toList
  match reading.unbalanced with
  | some position => ⟨reading.displacements, .error (.unbalancedParen position)⟩
  | none => ⟨reading.displacements ++ [.ordered pattern reading.postorder], .ok reading.postorder⟩

/-- What is read comes out unless a parenthesis has no partner. -/
theorem Postorder.result_ofPattern (pattern : String) :
    (ofPattern pattern).result =
      match (Infix.Reading.ofPattern pattern.toList).unbalanced with
      | some position => .error (.unbalancedParen position)
      | none => .ok (Infix.Reading.ofPattern pattern.toList).postorder := by
  unfold ofPattern
  split <;> simp_all

theorem Postorder.result_ofPattern_eq_ok_iff {pattern : String} {p : Postorder} :
    (ofPattern pattern).result = .ok p ↔
      (Infix.Reading.ofPattern pattern.toList).unbalanced = none ∧
        (Infix.Reading.ofPattern pattern.toList).postorder = p := by
  rw [result_ofPattern]
  cases (Infix.Reading.ofPattern pattern.toList).unbalanced with
  | none => simp
  | some position => simp

theorem Postorder.result_ofPattern_eq_error_iff {pattern : String} {e : Error} :
    (ofPattern pattern).result = .error e ↔
      ∃ position, (Infix.Reading.ofPattern pattern.toList).unbalanced = some position ∧
        e = .unbalancedParen position := by
  rw [result_ofPattern]
  cases (Infix.Reading.ofPattern pattern.toList).unbalanced with
  | none => simp
  | some position => simp [eq_comm]

end WholeMatch
