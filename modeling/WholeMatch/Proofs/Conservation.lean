import WholeMatch.Proofs.Layout

/-!
# Reading loses nothing

Every character of a pattern but the parentheses becomes one token, which is either emitted or
waits on the stack. So where a reading does not break off, the tokens emitted are those of the
characters read and of the operators that waited before, each of them once and with its place in
the pattern (`Reading.perm_emissions`), whether an expression can be made of them or not.
-/

namespace WholeMatch

namespace Infix

variable {stack below : List Pending} {popped : List (Operator × Nat)}

/-- The tokens of the operators on the stack with their places, the last one first. -/
def waitingTokens (stack : List Pending) : List (Token × Nat) :=
  stack.filterMap fun
    | .group _ => none
    | .operator op place => some (.operator op, place)

/-- The tokens of the characters that have one, in the order of the pattern. -/
def tokensOf (pattern : List Char) : List Token := (pattern.filter hasToken).map Token.ofChar

/-- The same tokens with their places, the first character being at `position`. -/
def tokensAt (position : Nat) (pattern : List Char) : List (Token × Nat) :=
  ((pattern.zipIdx position).filter (hasToken ·.1)).map fun p => (Token.ofChar p.1, p.2)

/-- Where the pattern has what waits on the stack. -/
def Pending.place : Pending → Nat
  | .group opened => opened
  | .operator _ place => place

/-- A token that has left, and where it comes from. -/
def Emission.placed (e : Emission) : Token × Nat := (e.token, e.origin)

theorem waitingTokens_of_popWhile {leaves : Operator → Bool}
    (h : popWhile leaves stack = (popped, below)) :
    waitingTokens stack = popped.map (fun p => (.operator p.1, p.2)) ++ waitingTokens below := by
  have parts := popWhile_append leaves stack
  rw [h] at parts
  rw [← parts, waitingTokens, List.filterMap_append, List.filterMap_map]
  exact congrArg (· ++ waitingTokens below) (congrFun List.filterMap_eq_map' popped)

theorem suffix_of_popWhile {leaves : Operator → Bool}
    (h : popWhile leaves stack = (popped, below)) : below <:+ stack := by
  have parts := popWhile_append leaves stack
  rw [h] at parts
  exact ⟨_, parts⟩

/-- Where every operator may leave, only an open group stays. -/
theorem eq_nil_of_popWhile_all (h : popWhile (fun _ => true) stack = (popped, below))
    (closed : ∀ opened tail, below ≠ .group opened :: tail) : below = [] := by
  induction stack generalizing popped with
  | nil =>
    cases h
    rfl
  | cons top rest ih =>
    cases top with
    | group opened =>
      cases h
      exact absurd rfl (closed opened rest)
    | operator op position =>
      cases h
      exact ih rfl

theorem map_placed_release (time : Nat) (displacer : Option Operator)
    (popped : List (Operator × Nat)) :
    (release time displacer popped).map Emission.placed =
      popped.map fun p => (.operator p.1, p.2) := by
  simp [release, Emission.placed, Function.comp_def]

theorem map_fst_tokensAt (position : Nat) (pattern : List Char) :
    (tokensAt position pattern).map Prod.fst = tokensOf pattern := by
  have chars : pattern.filter hasToken =
      ((pattern.zipIdx position).filter (hasToken ·.1)).map Prod.fst := by
    rw [← Function.comp_def hasToken Prod.fst, ← List.filter_map, List.zipIdx_map_fst]
  rw [tokensAt, tokensOf, chars, List.map_map, List.map_map]
  rfl

theorem tokensAt_cons_paren {c : Char} (paren : hasToken c = false) (position : Nat)
    (rest : List Char) : tokensAt position (c :: rest) = tokensAt (position + 1) rest := by
  rw [tokensAt, List.zipIdx_cons, List.filter_cons_of_neg (by simp [paren])]
  rfl

theorem tokensAt_cons {c : Char} (token : hasToken c = true) (position : Nat) (rest : List Char) :
    tokensAt position (c :: rest) = (Token.ofChar c, position) :: tokensAt (position + 1) rest := by
  rw [tokensAt, List.zipIdx_cons, List.filter_cons_of_pos (by simp [token])]
  rfl

theorem ofChar_of_isLiteral {c : Char} (plain : IsLiteral c) : Token.ofChar c = .literal c := by
  apply Token.ofChar_symbol_literal_iff.2
  cases found : Operator.ofSymbol? c with
  | none => rfl
  | some op =>
    obtain rfl := Operator.ofSymbol?_eq_some_iff.1 found
    exact absurd plain (not_isLiteral_symbol op)

namespace Reading

/-- The tokens emitted from somewhere in a pattern on are those that wait there and those of the
characters that follow. -/
theorem perm_emissions {position : Nat} {rest : List Char}
    (balanced : (ofRest stack position rest).unbalanced = none) :
    ((ofRest stack position rest).emissions.map Emission.placed).Perm
      (waitingTokens stack ++ tokensAt position rest) := by
  fun_induction ofRest stack position rest with
  | case1 => cases balanced
  | case2 stack position popped below popping emitted closed =>
    obtain rfl := eq_nil_of_popWhile_all popping closed
    rw [waitingTokens_of_popWhile popping, map_placed_release]
    simp [waitingTokens, tokensAt]
  | case3 stack position c rest symbol ih =>
    obtain rfl := Symbol.ofChar_eq_opening_iff.1 symbol
    rw [tokensAt_cons_paren (by decide)]
    exact ih balanced
  | case4 stack position c rest symbol popped emitted opened below popping ih =>
    obtain rfl := Symbol.ofChar_eq_closing_iff.1 symbol
    rw [emissions_after, List.map_append, map_placed_release, waitingTokens_of_popWhile popping,
      List.append_assoc, tokensAt_cons_paren (by decide)]
    exact (ih balanced).append_left _
  | case5 => cases balanced
  | case6 stack position c rest l symbol ih =>
    obtain ⟨plain, rfl⟩ := Symbol.ofChar_eq_literal_iff.1 symbol
    rw [emissions_after, List.map_append, tokensAt_cons (hasToken_of_isLiteral plain),
      ofChar_of_isLiteral plain]
    exact ((ih balanced).cons _).trans List.perm_middle.symm
  | case7 stack position c rest op symbol popped below popping ih =>
    obtain rfl := Symbol.ofChar_eq_operator_iff.1 symbol
    rw [emissions_after, List.map_append, map_placed_release, tokensAt_cons (hasToken_symbol op),
      ← Token.symbol, Token.ofChar_symbol_operator, waitingTokens_of_popWhile popping,
      List.append_assoc]
    exact ((ih balanced).trans List.perm_middle.symm).append_left _

end Reading

end Infix

/-- The tokens of a pattern that can be read are its characters but the parentheses. -/
theorem Postorder.perm_of_result_ofPattern {pattern : String} {p : Postorder}
    (h : (ofPattern pattern).result = .ok p) : p.tokens.Perm (Infix.tokensOf pattern.toList) := by
  obtain ⟨balanced, rfl⟩ := result_ofPattern_eq_ok_iff.1 h
  have perm := (Infix.Reading.perm_emissions balanced).map Prod.fst
  rw [List.map_map, List.map_append, Infix.map_fst_tokensAt] at perm
  exact perm

end WholeMatch
