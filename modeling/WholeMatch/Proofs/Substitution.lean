import WholeMatch.Proofs.Parentheses

/-!
# A group in the place of a literal

What waits outside of a group is not touched by what stands inside, and the `)` does for the inside
what the end of a pattern does (`Reading.ofRest_inside`). So a group leaves the stack as a literal
leaves it. A pattern is therefore read alike with a group in the place of a literal, up to the
tokens of the group and to the positions, which behind the group have moved
(`Reading.ofPattern_substitution`).
-/

namespace WholeMatch.Infix

variable {f : Nat → Nat} {stack stack' outer below : List Pending} {popped : List (Operator × Nat)}
  {position time opened i : Nat} {x y : List Char} {emitted later : List Emission}

/-! ### Moving a pattern -/

/-- What waits, in a pattern whose positions have moved. -/
def Pending.move (f : Nat → Nat) : Pending → Pending
  | .group opened => .group (f opened)
  | .operator op place => .operator op (f place)

/-- What has left, in a pattern whose positions have moved. -/
def Emission.move (f : Nat → Nat) (e : Emission) : Emission :=
  { e with origin := f e.origin, time := f e.time }

/-- The reading of a pattern whose positions have moved. -/
def Reading.move (f : Nat → Nat) (r : Reading) : Reading :=
  ⟨r.emissions.map (Emission.move f), r.unbalanced.map f⟩

theorem popWhile_move (f : Nat → Nat) (leaves : Operator → Bool) (stack : List Pending) :
    popWhile leaves (stack.map (Pending.move f)) =
      ((popWhile leaves stack).1.map fun p => (p.1, f p.2),
        (popWhile leaves stack).2.map (Pending.move f)) := by
  fun_induction popWhile leaves stack <;> simp_all [popWhile, Pending.move]

theorem release_move (f : Nat → Nat) (time : Nat) (displacer : Option Operator)
    (popped : List (Operator × Nat)) :
    release (f time) displacer (popped.map fun p => (p.1, f p.2)) =
      (release time displacer popped).map (Emission.move f) := by
  simp [release, Emission.move, Function.comp_def]

namespace Reading

theorem move_after (f : Nat → Nat) (emitted : List Emission) (r : Reading) :
    (after emitted r).move f = after (emitted.map (Emission.move f)) (r.move f) := by
  simp [move, after]

/-- Reading does not depend on where in a pattern it takes place. Only the positions still to come
have to follow each other; those on the stack may have moved in any way. -/
theorem ofRest_move {start : Nat} (shifts : ∀ k, start ≤ k → f (k + 1) = f k + 1)
    (stack : List Pending) (le : start ≤ position) (rest : List Char) :
    ofRest (stack.map (Pending.move f)) (f position) rest =
      (ofRest stack position rest).move f := by
  fun_induction ofRest stack position rest with
  | case1 stack position popped emitted opened tail popping =>
    simp only [ofRest, popWhile_move, popping, release_move]
    rfl
  | case2 stack position popped below popping emitted closed =>
    obtain rfl := eq_nil_of_popWhile_all popping closed
    simp only [ofRest, popWhile_move, popping, release_move]
    rfl
  | case3 stack position c rest symbol ih =>
    obtain rfl := Symbol.ofChar_eq_opening_iff.1 symbol
    rw [ofRest_opening, ← ih (Nat.le_succ_of_le le), shifts position le]
    rfl
  | case4 stack position c rest symbol popped emitted opened below popping ih =>
    rw [move_after, ← ih (Nat.le_succ_of_le le), shifts position le]
    simp only [ofRest, symbol, popWhile_move, popping, release_move]
    rfl
  | case5 stack position c rest symbol popped below popping emitted closed =>
    obtain rfl := eq_nil_of_popWhile_all popping closed
    simp only [ofRest, symbol, popWhile_move, popping, release_move]
    rfl
  | case6 stack position c rest l symbol ih =>
    obtain ⟨plain, rfl⟩ := Symbol.ofChar_eq_literal_iff.1 symbol
    rw [ofRest_literal plain, move_after, ← ih (Nat.le_succ_of_le le), shifts position le]
    rfl
  | case7 stack position c rest op symbol popped below popping ih =>
    obtain rfl := Symbol.ofChar_eq_operator_iff.1 symbol
    rw [ofRest_operator, move_after, ← ih (Nat.le_succ_of_le le), shifts position le]
    simp only [popWhile_move, popping, release_move]
    rfl

end Reading

/-! ### Reading a piece -/

/-- Reading `x` from a stack emits some tokens and leaves another stack, whatever comes after. -/
structure Passes (stack : List Pending) (position : Nat) (x : List Char) (emitted : List Emission)
    (stack' : List Pending) : Prop where
  read : ∀ rest, Reading.ofRest stack position (x ++ rest) =
    .after emitted (.ofRest stack' (position + x.length) rest)
  /-- Literals never wait. -/
  literals : (emitted.map (·.token)).countP (!·.isOperator) = x.countP (IsLiteral ·)
  place_lt : (∀ p ∈ stack, p.place < position) → ∀ p ∈ stack', p.place < position + x.length

/-- Reading `x` from a stack breaks off at the `)` at `i`, whatever comes after. -/
structure Breaks (stack : List Pending) (position : Nat) (x : List Char) (emitted : List Emission)
    (i : Nat) : Prop where
  read : ∀ rest, Reading.ofRest stack position (x ++ rest) = ⟨emitted, some i⟩
  lt : i < position + x.length

/-- Only operators leave the stack. -/
theorem countP_release (time : Nat) (displacer : Option Operator)
    (popped : List (Operator × Nat)) :
    ((release time displacer popped).map (·.token)).countP (!·.isOperator) = 0 := by
  rw [map_token_release, List.countP_map, List.countP_eq_zero]
  simp [Token.isOperator]

namespace Passes

theorem nil (stack : List Pending) (position : Nat) : Passes stack position [] [] stack where
  read _ := rfl
  literals := rfl
  place_lt before := before

theorem append (h : Passes stack position x emitted stack')
    (h' : Passes stack' (position + x.length) y later outer) :
    Passes stack position (x ++ y) (emitted ++ later) outer where
  read rest := by
    rw [List.append_assoc, h.read, h'.read, Reading.after_after, List.length_append, Nat.add_assoc]
  literals := by
    rw [List.map_append, List.countP_append, h.literals, h'.literals, List.countP_append]
  place_lt before := by
    rw [List.length_append, ← Nat.add_assoc]
    exact h'.place_lt (h.place_lt before)

theorem breaks (h : Passes stack position x emitted stack')
    (h' : Breaks stack' (position + x.length) y later i) :
    Breaks stack position (x ++ y) (emitted ++ later) i where
  read rest := by
    rw [List.append_assoc, h.read, h'.read]
    rfl
  lt := by
    rw [List.length_append, ← Nat.add_assoc]
    exact h'.lt

/-! ### One character -/

theorem opening (stack : List Pending) (position : Nat) :
    Passes stack position ['('] [] (.group position :: stack) where
  read rest := Reading.ofRest_opening stack position rest
  literals := rfl
  place_lt before := by
    intro p member
    rcases List.mem_cons.1 member with rfl | member
    · exact Nat.lt_succ_self _
    · exact Nat.lt_succ_of_lt (before p member)

theorem literal {c : Char} (plain : IsLiteral c) (stack : List Pending) (position : Nat) :
    Passes stack position [c] [⟨.literal c, position, position, none⟩] stack where
  read rest := Reading.ofRest_literal plain stack position rest
  literals := by simp [Token.isOperator, plain]
  place_lt before := fun p member => Nat.lt_succ_of_lt (before p member)

theorem closing (popping : popWhile (fun _ => true) stack = (popped, .group opened :: below))
    (position : Nat) : Passes stack position [')'] (release position none popped) below where
  read rest := by
    rw [List.singleton_append, Reading.ofRest, Symbol.ofChar_closing]
    simp only [popping]
    rfl
  literals := countP_release position none popped
  place_lt before := by
    intro p member
    have kept := suffix_of_popWhile popping
    exact Nat.lt_succ_of_lt (before p (kept.subset (List.mem_cons_of_mem _ member)))

theorem operator (op : Operator)
    (popping : popWhile (fun top => op.precedence < top.precedence) stack = (popped, below))
    (position : Nat) : Passes stack position [op.symbol] (release position (some op) popped)
      (.operator op position :: below) where
  read rest := by
    rw [List.singleton_append, Reading.ofRest_operator]
    simp only [popping]
    rfl
  literals := by
    rw [countP_release, List.countP_singleton]
    simp [not_isLiteral_symbol]
  place_lt before := by
    intro p member
    rcases List.mem_cons.1 member with rfl | member
    · exact Nat.lt_succ_self _
    · exact Nat.lt_succ_of_lt (before p ((suffix_of_popWhile popping).subset member))

end Passes

theorem Breaks.closing (popping : popWhile (fun _ => true) stack = (popped, []))
    (position : Nat) : Breaks stack position [')'] (release position none popped) position where
  read rest := by
    rw [List.singleton_append, Reading.ofRest, Symbol.ofChar_closing]
    simp only [popping]
  lt := Nat.lt_succ_self _

/-- One character is passed, or the reading breaks off there. -/
theorem passes_or_breaks_char (stack : List Pending) (position : Nat) (c : Char) :
    (∃ emitted stack', Passes stack position [c] emitted stack') ∨
      ∃ emitted i, Breaks stack position [c] emitted i := by
  cases symbol : Symbol.ofChar c with
  | opening =>
    obtain rfl := Symbol.ofChar_eq_opening_iff.1 symbol
    exact .inl ⟨_, _, .opening stack position⟩
  | closing =>
    obtain rfl := Symbol.ofChar_eq_closing_iff.1 symbol
    cases popping : popWhile (fun _ => true) stack with
    | mk popped below =>
      by_cases closed : ∀ opened tail, below ≠ .group opened :: tail
      · obtain rfl := eq_nil_of_popWhile_all popping closed
        exact .inr ⟨_, _, .closing popping position⟩
      · push Not at closed
        obtain ⟨opened, outer, rfl⟩ := closed
        exact .inl ⟨_, _, .closing popping position⟩
  | literal l =>
    obtain ⟨plain, rfl⟩ := Symbol.ofChar_eq_literal_iff.1 symbol
    exact .inl ⟨_, _, .literal plain stack position⟩
  | operator op =>
    obtain rfl := Symbol.ofChar_eq_operator_iff.1 symbol
    exact .inl ⟨_, _, .operator op rfl position⟩

/-- A piece of a pattern is passed, or the reading breaks off in it. -/
theorem passes_or_breaks (stack : List Pending) (position : Nat) (x : List Char) :
    (∃ emitted stack', Passes stack position x emitted stack') ∨
      ∃ emitted i, Breaks stack position x emitted i := by
  induction x generalizing stack position with
  | nil => exact .inl ⟨[], stack, .nil stack position⟩
  | cons c x ih =>
    rcases passes_or_breaks_char stack position c with ⟨emitted, next, first⟩ | ⟨emitted, i, first⟩
    · rcases ih next (position + 1) with ⟨later, stack', passes⟩ | ⟨later, i, breaks⟩
      · exact .inl ⟨_, _, first.append passes⟩
      · exact .inr ⟨_, _, first.breaks breaks⟩
    · refine .inr ⟨emitted, i, fun rest => first.read (x ++ rest), ?_⟩
      exact Nat.lt_of_lt_of_le first.lt (by simp)

/-! ### Reading inside a group -/

theorem popWhile_append_group (leaves : Operator → Bool) (stack : List Pending) (opened : Nat)
    (outer : List Pending) :
    popWhile leaves (stack ++ .group opened :: outer) =
      ((popWhile leaves stack).1, (popWhile leaves stack).2 ++ .group opened :: outer) := by
  fun_induction popWhile leaves stack <;> simp_all [popWhile]

namespace Reading

/-- What can be read on its own is read alike in a group: what waits outside is not touched, and the
`)` is for it like the end of the pattern. -/
theorem ofRest_inside {p : List Char} (balanced : (ofRest stack position p).unbalanced = none)
    (opened : Nat) (outer : List Pending) (rest : List Char) :
    ofRest (stack ++ .group opened :: outer) position (p ++ ')' :: rest) =
      after (ofRest stack position p).emissions (ofRest outer (position + p.length + 1) rest) := by
  have next (position : Nat) (c : Char) (p : List Char) :
      position + (c :: p).length + 1 = position + 1 + p.length + 1 := by
    rw [List.length_cons]
    omega
  -- The stack of the piece grows and shrinks above the group; at its end nothing is left of it.
  fun_induction ofRest stack position p with
  | case1 => cases balanced
  | case2 stack position popped below popping emitted closed =>
    obtain rfl := eq_nil_of_popWhile_all popping closed
    rw [List.nil_append, ofRest, Symbol.ofChar_closing]
    simp only [popWhile_append_group, popping, List.nil_append]
    rfl
  | case3 stack position c p symbol ih =>
    obtain rfl := Symbol.ofChar_eq_opening_iff.1 symbol
    rw [List.cons_append, ofRest_opening, ← List.cons_append, ih balanced, next]
  | case4 stack position c p symbol popped emitted inner below popping ih =>
    rw [List.cons_append, ofRest, symbol]
    simp only [popWhile_append_group, popping, List.cons_append]
    rw [ih balanced, next, after_after]
    rfl
  | case5 => cases balanced
  | case6 stack position c p l symbol ih =>
    obtain ⟨plain, rfl⟩ := Symbol.ofChar_eq_literal_iff.1 symbol
    rw [List.cons_append, ofRest_literal plain, ih balanced, next, after_after]
    rfl
  | case7 stack position c p op symbol popped below popping ih =>
    obtain rfl := Symbol.ofChar_eq_operator_iff.1 symbol
    rw [List.cons_append, ofRest_operator]
    simp only [popWhile_append_group, popping]
    rw [← List.cons_append, ih balanced, next, after_after]
    rfl

/-- The tokens of a moved pattern are the same. -/
theorem tokens_move (f : Nat → Nat) (r : Reading) :
    (r.move f).emissions.map (·.token) = r.emissions.map (·.token) := by
  simp [move, Emission.move, Function.comp_def]

end Reading

/-! ### A group in the place of a literal -/

/-- Where a position is found after a group of `length` characters has taken the place of the one
at `place`. -/
def widen (place length i : Nat) : Nat := if i < place then i else i + length + 1

theorem widen_of_lt {place length : Nat} (lt : i < place) : widen place length i = i :=
  if_pos lt

theorem widen_of_le {place length : Nat} (le : place ≤ i) :
    widen place length i = i + length + 1 :=
  if_neg (Nat.not_lt.2 le)

/-- Behind the group, positions follow each other as before. -/
theorem widen_succ (place length k : Nat) (le : place ≤ k) :
    widen place length (k + 1) = widen place length k + 1 := by
  rw [widen_of_le le, widen_of_le (Nat.le_succ_of_le le)]
  omega

theorem map_move_widen {place : Nat} (before : ∀ p ∈ stack, p.place < place) (length : Nat) :
    stack.map (Pending.move (widen place length)) = stack := by
  have kept : ∀ p ∈ stack, Pending.move (widen place length) p = p := by
    intro p member
    have lt := before p member
    cases p with
    | group opened => exact congrArg Pending.group (widen_of_lt lt)
    | operator op i => exact congrArg (Pending.operator op) (widen_of_lt lt)
  exact (List.map_congr_left kept).trans (List.map_id' stack)

namespace Reading

variable {p : List Char} {l : Char}

/-- A pattern with a group in the place of a literal is read like the pattern with the literal, or
both break off before it. -/
theorem ofPattern_substitution (plain : IsLiteral l)
    (balanced : (ofPattern p).unbalanced = none) (x y : List Char) :
    (∃ emitted i, i < x.length ∧ ofPattern (x ++ l :: y) = ⟨emitted, some i⟩ ∧
      ofPattern (x ++ '(' :: (p ++ ')' :: y)) = ⟨emitted, some i⟩) ∨
    ∃ before later, (before.map (·.token)).countP (!·.isOperator) = x.countP (IsLiteral ·) ∧
      ofPattern (x ++ l :: y) =
        after (before ++ [⟨.literal l, x.length, x.length, none⟩]) later ∧
      ofPattern (x ++ '(' :: (p ++ ')' :: y)) =
        after (before ++ (ofPattern p).emissions.map (Emission.move (x.length + 1 + ·)))
          (later.move (widen x.length p.length)) := by
  rcases passes_or_breaks [] 0 x with ⟨before, stack, passes⟩ | ⟨emitted, i, breaks⟩
  · right
    refine ⟨before, ofRest stack (x.length + 1) y, passes.literals, ?_, ?_⟩
    · rw [ofPattern, passes.read, Nat.zero_add, ofRest_literal plain, after_after]
    · have inside : ofRest [] (x.length + 1) p = (ofPattern p).move (x.length + 1 + ·) :=
        ofRest_move (f := (x.length + 1 + ·)) (fun _ _ => rfl) [] (Nat.le_refl 0) p
      have balanced' : (ofRest [] (x.length + 1) p).unbalanced = none := by
        rw [inside, move, balanced]
        rfl
      have lt : ∀ q ∈ stack, q.place < x.length := by
        have kept := passes.place_lt (by simp)
        rwa [Nat.zero_add] at kept
      have beyond : ofRest stack (x.length + 1 + p.length + 1) y =
          (ofRest stack (x.length + 1) y).move (widen x.length p.length) := by
        have moved := ofRest_move (widen_succ x.length p.length) stack (Nat.le_succ x.length) y
        rwa [map_move_widen lt, widen_of_le (Nat.le_succ x.length)] at moved
      have group := ofRest_inside balanced' x.length stack y
      rw [List.nil_append, inside, beyond] at group
      rw [ofPattern, passes.read, Nat.zero_add, ofRest_opening, group, after_after]
      rfl
  · left
    have lt := breaks.lt
    rw [Nat.zero_add] at lt
    exact ⟨emitted, i, lt, breaks.read _, breaks.read _⟩

/-- What is reported is the same parenthesis, where it is found then. -/
theorem unbalanced_substitution (plain : IsLiteral l) (balanced : (ofPattern p).unbalanced = none)
    (x y : List Char) :
    (ofPattern (x ++ '(' :: (p ++ ')' :: y))).unbalanced =
      (ofPattern (x ++ l :: y)).unbalanced.map (widen x.length p.length) := by
  rcases ofPattern_substitution plain balanced x y with
    ⟨emitted, i, lt, read, read'⟩ | ⟨before, later, _, read, read'⟩
  · rw [read, read']
    exact congrArg some (widen_of_lt lt).symm
  · rw [read, read', unbalanced_after, unbalanced_after]
    rfl

/-- The tokens of the group come in the place of the literal. -/
theorem exists_tokens_substitution (plain : IsLiteral l)
    (balanced : (ofPattern p).unbalanced = none) {x y : List Char}
    (closed : (ofPattern (x ++ l :: y)).unbalanced = none) :
    ∃ first last, first.countP (!·.isOperator) = x.countP (IsLiteral ·) ∧
      (ofPattern (x ++ l :: y)).postorder = ⟨first ++ .literal l :: last⟩ ∧
      (ofPattern (x ++ '(' :: (p ++ ')' :: y))).postorder =
        ⟨first ++ (ofPattern p).postorder.tokens ++ last⟩ := by
  rcases ofPattern_substitution plain balanced x y with
    ⟨emitted, i, _, read, _⟩ | ⟨before, later, literals, read, read'⟩
  · rw [read] at closed
    cases closed
  · refine ⟨before.map (·.token), later.emissions.map (·.token), literals, ?_, ?_⟩
    · rw [read]
      simp [postorder, after]
    · have inner : ((ofPattern p).emissions.map (Emission.move (x.length + 1 + ·))).map (·.token) =
          (ofPattern p).emissions.map (·.token) :=
        tokens_move (x.length + 1 + ·) (ofPattern p)
      have behind := tokens_move (widen x.length p.length) later
      rw [read', postorder, emissions_after, List.map_append, List.map_append, inner, behind]
      rfl

/-- A literal is never reported. -/
theorem ne_length_of_unbalanced (plain : IsLiteral l) {x y : List Char}
    (reported : (ofPattern (x ++ l :: y)).unbalanced = some i) : i ≠ x.length := by
  rintro rfl
  have balance := balance_ofPattern (x ++ l :: y)
  rw [reported] at balance
  have here : (x ++ l :: y)[x.length]? = some l := by simp
  rcases balance.getElem?_eq_paren with opening | closing
  · rw [here, Option.some.injEq] at opening
    exact plain.1 opening
  · rw [here, Option.some.injEq] at closing
    exact plain.2.1 closing

end Reading

/-- There is one way only to cut a list at an element of some kind with a given number of this kind
before it. -/
theorem eq_of_append_cons_eq {α : Type} {kind : α → Bool} {a b a' b' : List α} {c c' : α}
    (same : a ++ c :: b = a' ++ c' :: b') (first : kind c = true) (second : kind c' = true)
    (count : a.countP kind = a'.countP kind) : a = a' ∧ b = b' := by
  induction a generalizing a' with
  | nil =>
    cases a' with
    | nil => exact ⟨rfl, (List.cons.inj same).2⟩
    | cons d a' =>
      obtain ⟨rfl, _⟩ := List.cons.inj same
      rw [List.countP_cons_of_pos first] at count
      exact absurd count (Nat.zero_ne_add_one _)
  | cons d a ih =>
    cases a' with
    | nil =>
      obtain ⟨rfl, _⟩ := List.cons.inj same
      rw [List.countP_cons_of_pos second] at count
      exact absurd count (Nat.add_one_ne_zero _)
    | cons d' a' =>
      obtain ⟨rfl, rest⟩ := List.cons.inj same
      rw [List.countP_cons, List.countP_cons, Nat.add_right_cancel_iff] at count
      obtain ⟨rfl, rfl⟩ := ih rest count
      exact ⟨rfl, rfl⟩

end WholeMatch.Infix

namespace WholeMatch.Postorder

open Infix

/-- A group can stand for a literal: where it does, the tokens of what it holds come in the place of
the literal, and what is wrong outside of it is reported as before, with the positions behind the
group moved by what it is longer. -/
theorem ofPattern_group_like_literal {x y p : String} {q : Postorder} {l : Char}
    (plain : IsLiteral l) (h : (ofPattern p).result = .ok q) :
    (∀ u v, (ofPattern (x ++ String.singleton l ++ y)).result = .ok ⟨u ++ .literal l :: v⟩ →
      u.countP (!·.isOperator) = x.toList.countP (IsLiteral ·) →
      (ofPattern (x ++ "(" ++ p ++ ")" ++ y)).result = .ok ⟨u ++ q.tokens ++ v⟩) ∧
    ∀ i, (ofPattern (x ++ String.singleton l ++ y)).result = .error (.unbalancedParen i) →
      i ≠ x.length ∧
      (i < x.length →
        (ofPattern (x ++ "(" ++ p ++ ")" ++ y)).result = .error (.unbalancedParen i)) ∧
      (x.length < i →
        (ofPattern (x ++ "(" ++ p ++ ")" ++ y)).result =
          .error (.unbalancedParen (i + p.length + 1))) := by
  obtain ⟨balanced, rfl⟩ := result_ofPattern_eq_ok_iff.1 h
  have single : (x ++ String.singleton l ++ y).toList = x.toList ++ l :: y.toList := by simp
  have group : (x ++ "(" ++ p ++ ")" ++ y).toList =
      x.toList ++ '(' :: (p.toList ++ ')' :: y.toList) := by simp
  have reported := Reading.unbalanced_substitution plain balanced x.toList y.toList
  constructor
  · intro u v ordered count
    obtain ⟨closed, tokens⟩ := result_ofPattern_eq_ok_iff.1 ordered
    rw [single] at closed tokens
    obtain ⟨first, last, literals, literal_read, group_read⟩ :=
      Reading.exists_tokens_substitution plain balanced closed
    rw [literal_read, mk.injEq] at tokens
    obtain ⟨rfl, rfl⟩ := eq_of_append_cons_eq tokens rfl rfl (literals.trans count.symm)
    rw [result_ofPattern_eq_ok_iff, group, group_read, reported, closed]
    exact ⟨rfl, rfl⟩
  · intro i failed
    obtain ⟨_, unbalanced, same⟩ := result_ofPattern_eq_error_iff.1 failed
    cases same
    rw [single] at unbalanced
    rw [unbalanced, Option.map_some] at reported
    rw [← String.length_toList, ← String.length_toList]
    refine ⟨Reading.ne_length_of_unbalanced plain unbalanced, ?_, ?_⟩
    · intro lt
      rw [widen_of_lt lt, ← group] at reported
      exact result_ofPattern_eq_error_iff.2 ⟨i, reported, rfl⟩
    · intro lt
      rw [widen_of_le (Nat.le_of_lt lt), ← group] at reported
      exact result_ofPattern_eq_error_iff.2 ⟨_, reported, rfl⟩

/-- What waits outside waits through the group, and an unclosed `(` behind it is reported there. -/
theorem ofPattern_group_like_literal_shifted :
    IsLiteral 'l' ∧ (ofPattern "b|c").result = .ok (ofText "bc|") ∧
      (ofPattern "a.(b|c)*|d").result = .ok (ofText "abc|*.d|") ∧
      (ofPattern ".(b|c)(").result = .error (.unbalancedParen 6) := by
  have plain : IsLiteral 'l' := by decide
  have inner : (ofPattern "b|c").result = .ok (ofText "bc|") := rfl
  have first := (ofPattern_group_like_literal (x := "a.") (y := "*|d") plain inner).1
    [.literal 'a'] [.operator .star, .operator .concat, .literal 'd', .operator .alternate] rfl rfl
  have second := ((ofPattern_group_like_literal (x := ".") (y := "(") plain inner).2 2 rfl).2.2
    (by decide)
  exact ⟨plain, inner, first, second⟩

end WholeMatch.Postorder
