import WholeMatch.Infix.Grammar
import WholeMatch.Infix.Reading

/-!
# Reading what the grammar derives

Reading a piece of a pattern emits tokens and leaves operators waiting on top of whatever waits
already, and both together are the tokens of the piece (`Reads`). The operators left are as strong
as the form of the piece allows or stronger, so each of them leaves for the next operator of the
form around it and none that waits below does. Following the grammar, every pattern is read as the
expression it is derived for (`Postorder.result_ofPattern_of_isPatternOf`).
-/

namespace WholeMatch.Infix

/-- The stack entries of operators that wait, the last one first. -/
def pending (waiting : List (Operator × Nat)) : List Pending :=
  waiting.map fun p => .operator p.1 p.2

/-- No operator stronger than this waits on top. -/
def Bounded (level : Nat) (stack : List Pending) : Prop :=
  ∀ op position below, stack = .operator op position :: below → op.precedence ≤ level

theorem Bounded.mono {level level' : Nat} {stack : List Pending} (h : Bounded level stack)
    (le : level ≤ level') : Bounded level' stack := by
  intro op position below same
  exact Nat.le_trans (h op position below same) le

theorem bounded_group (level opened : Nat) (stack : List Pending) :
    Bounded level (.group opened :: stack) := by
  intro op position below same
  cases same

/-- Operators leave down to the first one that may not, or to a group. -/
theorem popWhile_pending {leaves : Operator → Bool} {waiting : List (Operator × Nat)}
    {stack : List Pending} (all : ∀ p ∈ waiting, leaves p.1 = true)
    (stop : ∀ op position below, stack = .operator op position :: below → leaves op = false) :
    popWhile leaves (pending waiting ++ stack) = (waiting, stack) := by
  induction waiting with
  | nil =>
    match stack with
    | [] => rfl
    | .group opened :: below => rfl
    | .operator op position :: below =>
      have stays := stop op position below rfl
      simp [pending, popWhile, stays]
  | cons p waiting ih =>
    have first := all p List.mem_cons_self
    have rest := ih fun q member => all q (List.mem_cons_of_mem p member)
    show popWhile leaves (.operator p.1 p.2 :: (pending waiting ++ stack)) = _
    rw [popWhile, if_pos first, rest]

theorem map_token_release (time : Nat) (displacer : Option Operator)
    (popped : List (Operator × Nat)) :
    (release time displacer popped).map (·.token) = popped.map fun p => .operator p.1 := by
  simp [release, Function.comp_def]

namespace Reading

theorem after_after (first second : List Emission) (r : Reading) :
    after first (after second r) = after (first ++ second) r := by
  simp [after]

/-- Closing a group lets the operators leave that wait in it. -/
theorem ofRest_closing (waiting : List (Operator × Nat)) (opened position : Nat)
    (stack : List Pending) (rest : List Char) :
    ofRest (pending waiting ++ .group opened :: stack) position (')' :: rest) =
      after (release position none waiting) (ofRest stack (position + 1) rest) := by
  have popped : popWhile (fun _ => true) (pending waiting ++ .group opened :: stack) =
      (waiting, .group opened :: stack) :=
    popWhile_pending (fun _ _ => rfl) (fun _ _ _ same => by cases same)
  rw [ofRest, Symbol.ofChar_closing]
  simp only [popped]

/-- At the end of a pattern without open groups all operators leave. -/
theorem ofRest_end (waiting : List (Operator × Nat)) (position : Nat) :
    ofRest (pending waiting) position [] = ⟨release position none waiting, none⟩ := by
  have popped : popWhile (fun _ => true) (pending waiting ++ []) = (waiting, []) :=
    popWhile_pending (fun _ _ => rfl) (fun _ _ _ same => by cases same)
  rw [List.append_nil] at popped
  simp only [ofRest, popped]

/-- An operator takes the place of the stronger ones that wait in its own group. -/
theorem ofRest_displacing (op : Operator) {waiting : List (Operator × Nat)}
    {stack : List Pending} (stronger : ∀ p ∈ waiting, op.precedence < p.1.precedence)
    (bounded : Bounded op.precedence stack) (position : Nat) (rest : List Char) :
    ofRest (pending waiting ++ stack) position (op.symbol :: rest) =
      after (release position (some op) waiting)
        (ofRest (.operator op position :: stack) (position + 1) rest) := by
  have popped : popWhile (fun top => op.precedence < top.precedence) (pending waiting ++ stack) =
      (waiting, stack) := by
    apply popWhile_pending (fun p member => decide_eq_true (stronger p member))
    intro top place below same
    exact decide_eq_false (Nat.not_lt.2 (bounded top place below same))
  rw [ofRest_operator]
  simp only [popped]

end Reading

/-- Reading `s` where no operator stronger than `level` waits emits some of the tokens and leaves
the rest of them waiting, all at least as strong as `level`. -/
def Reads (level : Nat) (s : List Char) (tokens : List Token) : Prop :=
  ∀ stack position rest, Bounded level stack →
    ∃ emitted waiting, (∀ p ∈ waiting, level ≤ p.1.precedence) ∧
      emitted.map (·.token) ++ waiting.map (fun p => .operator p.1) = tokens ∧
      Reading.ofRest stack position (s ++ rest) =
        .after emitted (.ofRest (pending waiting ++ stack) (position + s.length) rest)

namespace Reads

variable {level level' : Nat} {s t : List Char} {first second tokens : List Token}

theorem mono (h : Reads level s tokens) (le : level' ≤ level) : Reads level' s tokens := by
  intro stack position rest bounded
  obtain ⟨emitted, waiting, strong, split, read⟩ := h stack position rest (bounded.mono le)
  exact ⟨emitted, waiting, fun p member => Nat.le_trans le (strong p member), split, read⟩

theorem literal {c : Char} (h : IsLiteral c) : Reads level [c] [.literal c] := by
  intro stack position rest _
  refine ⟨[⟨.literal c, position, position, none⟩], [], by simp, rfl, ?_⟩
  exact Reading.ofRest_literal h stack position rest

/-- A group leaves nothing waiting. -/
theorem group (h : Reads level s tokens) : Reads level' ('(' :: s ++ [')']) tokens := by
  intro stack position rest _
  obtain ⟨emitted, waiting, _, split, read⟩ :=
    h (.group position :: stack) (position + 1) (')' :: rest) (bounded_group level position stack)
  refine ⟨emitted ++ release (position + 1 + s.length) none waiting, [], by simp, ?_, ?_⟩
  · rw [List.map_append, map_token_release, List.map_nil, List.append_nil, split]
  · have length : position + ('(' :: s ++ [')']).length = position + 1 + s.length + 1 := by
      simp only [List.length_append, List.length_cons, List.length_nil]
      omega
    rw [length, List.append_assoc, List.singleton_append, List.cons_append,
      Reading.ofRest_opening, read, Reading.ofRest_closing, Reading.after_after]
    rfl

/-- Between its operands, an operator waits on the ones of the second operand, and lets those of
the first one leave. -/
theorem join (op : Operator) (hs : Reads level s first) (weaker : op.precedence < level)
    (ht : Reads op.precedence t second) :
    Reads op.precedence (s ++ op.symbol :: t) (first ++ second ++ [.operator op]) := by
  intro stack position rest bounded
  obtain ⟨emitted, waiting, strong, split, read⟩ := hs stack position (op.symbol :: t ++ rest)
    (bounded.mono (Nat.le_of_lt weaker))
  have next : Bounded op.precedence (.operator op (position + s.length) :: stack) := by
    intro top place below same
    cases same
    exact Nat.le_refl _
  obtain ⟨emitted', waiting', strong', split', read'⟩ :=
    ht (.operator op (position + s.length) :: stack) (position + s.length + 1) rest next
  refine ⟨emitted ++ release (position + s.length) (some op) waiting ++ emitted',
    waiting' ++ [(op, position + s.length)], ?_, ?_, ?_⟩
  · intro p member
    rcases List.mem_append.1 member with later | last
    · exact strong' p later
    · obtain rfl := List.mem_singleton.1 last
      exact Nat.le_refl _
  · simp only [← split, ← split', List.map_append, List.map_cons, List.map_nil,
      map_token_release, List.append_assoc]
  · have length : position + (s ++ op.symbol :: t).length =
        position + s.length + 1 + t.length := by
      simp only [List.length_append, List.length_cons]
      omega
    have displaced := Reading.ofRest_displacing op
      (fun p member => Nat.lt_of_lt_of_le weaker (strong p member)) bounded
      (position + s.length) (t ++ rest)
    rw [length, List.append_assoc, read, List.cons_append, displaced, read',
      Reading.after_after, Reading.after_after]
    simp [pending]

/-- Stars only wait on stars, so the next one may as well have been read before them. -/
theorem star (h : Reads Operator.star.precedence s tokens) :
    Reads Operator.star.precedence (s ++ ['*']) (tokens ++ [.operator .star]) := by
  intro stack position rest bounded
  obtain ⟨emitted, waiting, strong, split, read⟩ := h stack position ('*' :: rest) bounded
  have stars : waiting.map (fun p => Token.operator p.1) =
      List.replicate waiting.length (.operator .star) := by
    rw [List.eq_replicate_iff, List.length_map]
    refine ⟨rfl, ?_⟩
    intro token member
    obtain ⟨⟨op, place⟩, listed, rfl⟩ := List.mem_map.1 member
    have strongest := strong (op, place) listed
    cases op with
    | star => rfl
    | concat => simp [Operator.precedence] at strongest
    | alternate => simp [Operator.precedence] at strongest
  have none_stronger : Bounded Operator.star.precedence (pending waiting ++ stack) := by
    intro op place below _
    cases op <;> decide
  have none_leaves : ∀ p ∈ ([] : List (Operator × Nat)),
      Operator.star.precedence < p.1.precedence := by simp
  have waits := Reading.ofRest_displacing .star none_leaves none_stronger (position + s.length) rest
  refine ⟨emitted, (.star, position + s.length) :: waiting, ?_, ?_, ?_⟩
  · intro p member
    rcases List.mem_cons.1 member with rfl | earlier
    · exact Nat.le_refl _
    · exact strong p earlier
  · rw [← split, List.map_cons, stars, List.append_assoc, ← List.replicate_succ,
      ← List.replicate_succ']
  · have length : position + (s ++ ['*']).length = position + s.length + 1 := by
      simp only [List.length_append, List.length_cons, List.length_nil]
      omega
    rw [length, List.append_assoc, List.singleton_append, read]
    exact congrArg (Reading.after emitted) waits

/-- A whole pattern is read as its tokens. -/
theorem ofPattern (h : Reads level s tokens) :
    (Reading.ofPattern s).unbalanced = none ∧ (Reading.ofPattern s).postorder = ⟨tokens⟩ := by
  have empty : Bounded level [] := by
    intro op position below same
    cases same
  obtain ⟨emitted, waiting, _, split, read⟩ := h [] 0 [] empty
  rw [List.append_nil, List.append_nil, Reading.ofRest_end] at read
  rw [Reading.ofPattern, read]
  refine ⟨rfl, ?_⟩
  rw [Reading.postorder, Reading.emissions_after, List.map_append, map_token_release, split]

end Reads

/-- The strength of the operators that join pieces of this form. -/
def Form.level : Form → Nat
  | choice => Operator.alternate.precedence
  | chain => Operator.concat.precedence
  | repetition => Operator.star.precedence
  | atom => Operator.star.precedence

/-- What the grammar derives is read as the tokens of the expression. -/
theorem Derives.reads {form : Form} {s : List Char} {e : Expr} (h : Derives form s e) :
    Reads form.level s e.tokens := by
  induction h with
  | chain _ ih => exact ih.mono (by decide)
  | alternate _ _ ihs iht => exact ihs.join .alternate (by decide) iht
  | repetition _ ih => exact ih.mono (by decide)
  | concat _ _ ihs iht => exact ihs.join .concat (by decide) iht
  | atom _ ih => exact ih
  | star _ ih => exact ih.star
  | literal h => exact .literal h
  | group _ ih => exact ih.group

end WholeMatch.Infix

namespace WholeMatch

/-- A pattern of an expression is put into the post-order of this expression. -/
theorem Postorder.result_ofPattern_of_isPatternOf {pattern : String} {e : Expr}
    (h : Infix.IsPatternOf pattern.toList e) : (ofPattern pattern).result = .ok e.postorder := by
  obtain ⟨balanced, read⟩ := h.reads.ofPattern
  rw [result_ofPattern, balanced, read]
  rfl

end WholeMatch
