import WholeMatch.Proofs.Building

/-!
# The tokens of a pattern are its own

Putting a pattern into post-order drops the parentheses and moves operators, and that is all. The
literals keep their order, since each leaves as soon as it is read
(`Infix.Reading.literals_emissions`), and each operator is there as often as before, since reading
loses nothing (`Postorder.count_of_result_ofPattern`). So no literal of the result looks like an
operator, which is just what it takes for the text of a post-order to be read back as it was
(`Postorder.ofText_text_iff`).
-/

namespace WholeMatch

/-- The character that a literal matches. -/
def Token.literal? : Token → Option Char
  | literal c => some c
  | operator _ => none

namespace Infix

variable {stack : List Pending} {position : Nat} {rest : List Char}

/-- The characters of the literals among some emissions, in the order in which they left. -/
def literalsOf (emitted : List Emission) : List Char := emitted.filterMap (·.token.literal?)

theorem literalsOf_append (first second : List Emission) :
    literalsOf (first ++ second) = literalsOf first ++ literalsOf second :=
  List.filterMap_append

/-- Only operators wait on the stack. -/
theorem literalsOf_release (time : Nat) (displacer : Option Operator)
    (popped : List (Operator × Nat)) : literalsOf (release time displacer popped) = [] := by
  simp [literalsOf, release, Token.literal?]

/-- Wherever a reading starts, it emits the literals that follow in their order, whatever waits on
the stack. -/
theorem Reading.literals_emissions (balanced : (ofRest stack position rest).unbalanced = none) :
    literalsOf (ofRest stack position rest).emissions = rest.filter (IsLiteral ·) := by
  fun_induction ofRest stack position rest with
  | case1 => cases balanced
  | case2 stack position popped below popping emitted closed =>
    exact literalsOf_release position none popped
  | case3 stack position c rest symbol ih =>
    obtain rfl := Symbol.ofChar_eq_opening_iff.1 symbol
    rw [ih balanced, List.filter_cons_of_neg (by decide)]
  | case4 stack position c rest symbol popped emitted opened below popping ih =>
    obtain rfl := Symbol.ofChar_eq_closing_iff.1 symbol
    rw [emissions_after, literalsOf_append, literalsOf_release, List.nil_append, ih balanced,
      List.filter_cons_of_neg (by decide)]
  | case5 => cases balanced
  | case6 stack position c rest l symbol ih =>
    obtain ⟨plain, rfl⟩ := Symbol.ofChar_eq_literal_iff.1 symbol
    rw [emissions_after, literalsOf_append, ih balanced,
      List.filter_cons_of_pos (by simpa using plain)]
    rfl
  | case7 stack position c rest op symbol popped below popping ih =>
    -- the operator waits itself, and those that leave before it are no literals either
    obtain rfl := Symbol.ofChar_eq_operator_iff.1 symbol
    have dropped := not_isLiteral_symbol op
    rw [emissions_after, literalsOf_append, literalsOf_release, List.nil_append, ih balanced,
      List.filter_cons_of_neg (by simpa using dropped)]

theorem count_tokensOf (pattern : List Char) (op : Operator) :
    (tokensOf pattern).count (.operator op) = pattern.count op.symbol := by
  rw [tokensOf, List.count, List.countP_map, List.countP_filter, List.count]
  apply List.countP_congr
  intro c _
  have read := @Token.ofChar_eq_operator_iff c op
  constructor
  · intro both
    simp_all
  · intro same
    -- an operator is no parenthesis, so its character was not dropped
    rw [beq_iff_eq] at same
    subst same
    simp [read, hasToken_symbol]

theorem length_tokensOf (pattern : List Char) :
    (tokensOf pattern).length = pattern.countP fun c => c ≠ '(' ∧ c ≠ ')' := by
  rw [tokensOf, List.length_map, List.countP_eq_length_filter]
  congr 2
  funext c
  rw [Bool.eq_iff_iff]
  simp [hasToken]

end Infix

namespace Postorder

variable {pattern : String} {p : Postorder} {c : Char}

theorem literals_of_result_ofPattern (h : (ofPattern pattern).result = .ok p) :
    p.tokens.filterMap Token.literal? = pattern.toList.filter (Infix.IsLiteral ·) := by
  obtain ⟨balanced, rfl⟩ := result_ofPattern_eq_ok_iff.1 h
  rw [← Infix.Reading.literals_emissions balanced]
  exact List.filterMap_map

theorem isLiteral_of_result_ofPattern (h : (ofPattern pattern).result = .ok p)
    (member : .literal c ∈ p.tokens) : Infix.IsLiteral c := by
  have listed : c ∈ p.tokens.filterMap Token.literal? :=
    List.mem_filterMap.2 ⟨.literal c, member, rfl⟩
  rw [literals_of_result_ofPattern h, List.mem_filter] at listed
  exact of_decide_eq_true listed.2

theorem count_of_result_ofPattern (h : (ofPattern pattern).result = .ok p) (op : Operator) :
    p.tokens.count (.operator op) = pattern.toList.count op.symbol :=
  ((perm_of_result_ofPattern h).count_eq _).trans (Infix.count_tokensOf _ op)

/-- A post-order is read back from its text exactly when no literal looks like an operator. -/
theorem ofText_text_iff : ofText p.text = p ↔ ∀ op : Operator, .literal op.symbol ∉ p.tokens := by
  obtain ⟨tokens⟩ := p
  have reread : ofText (text ⟨tokens⟩) = ⟨tokens.map fun t => .ofChar t.symbol⟩ := by
    simp [ofText, text, Function.comp_def]
  have fixed : tokens.map (fun t => .ofChar t.symbol) = tokens ↔
      ∀ t ∈ tokens, Token.ofChar t.symbol = t := by
    simpa using List.map_inj_left (g := id)
  rw [reread, mk.injEq, fixed]
  constructor
  · intro same op member
    have unread := Token.ofChar_symbol_literal_iff.1 (same _ member)
    rw [Operator.ofSymbol?_symbol] at unread
    cases unread
  · intro plain t member
    cases t with
    | operator op => exact Token.ofChar_symbol_operator op
    | literal c =>
      rw [Token.ofChar_symbol_literal_iff, Option.eq_none_iff_forall_ne_some]
      intro op found
      rw [Operator.ofSymbol?_eq_some_iff] at found
      exact plain op (found ▸ member)

/-- A pattern that can be read keeps its literals in their order and its operators by number, and
has no other tokens; so its post-order is read back from its text. Of any token list this is true
exactly when it holds no literal that looks like an operator. -/
theorem ofPattern_keeps_tokens :
    (∀ (pattern : String) (p : Postorder), (ofPattern pattern).result = .ok p →
      p.tokens.filterMap Token.literal? = pattern.toList.filter (Infix.IsLiteral ·) ∧
      (∀ op : Operator, p.tokens.count (.operator op) = pattern.toList.count op.symbol) ∧
      p.size = (pattern.toList.countP fun c => c ≠ '(' ∧ c ≠ ')') ∧
      (∀ c, .literal c ∈ p.tokens → Infix.IsLiteral c) ∧
      ofText p.text = p) ∧
    ∀ p : Postorder, ofText p.text = p ↔
      .literal '.' ∉ p.tokens ∧ .literal '|' ∉ p.tokens ∧ .literal '*' ∉ p.tokens := by
  constructor
  · intro pattern p h
    have plain : ∀ c, .literal c ∈ p.tokens → Infix.IsLiteral c :=
      fun c => isLiteral_of_result_ofPattern h
    have reread : ofText p.text = p :=
      ofText_text_iff.2 fun op member => Infix.not_isLiteral_symbol op (plain _ member)
    have size := (perm_of_result_ofPattern h).length_eq.trans (Infix.length_tokensOf _)
    exact ⟨literals_of_result_ofPattern h, count_of_result_ofPattern h, size, plain, reread⟩
  · intro p
    rw [ofText_text_iff]
    constructor
    · intro plain
      exact ⟨plain .concat, plain .alternate, plain .star⟩
    · rintro ⟨concat, alternate, star⟩ op
      cases op with
      | concat => exact concat
      | alternate => exact alternate
      | star => exact star

/-- A group that is no expression is kept as well, while a star that is a literal would be taken for
an operator. -/
theorem ofPattern_keeps_tokens_stray_star :
    (ofPattern "a.(b|*)").result = .ok (ofText "ab*|.") ∧
      (ofText "ab*|.").tokens.filterMap Token.literal? =
        "a.(b|*)".toList.filter (Infix.IsLiteral ·) ∧
      (ofText "ab*|.").size = 5 ∧ ofText (ofText "ab*|.").text = ofText "ab*|." ∧
      ofText (text ⟨[.literal 'a', .literal '*']⟩) ≠ ⟨[.literal 'a', .literal '*']⟩ := by
  have read : (ofPattern "a.(b|*)").result = .ok (ofText "ab*|.") := rfl
  obtain ⟨literals, _, size, _, reread⟩ := ofPattern_keeps_tokens.1 _ _ read
  refine ⟨read, literals, size, reread, fun same => ?_⟩
  obtain ⟨_, _, star⟩ := (ofPattern_keeps_tokens.2 _).1 same
  exact star (by simp)

end Postorder

end WholeMatch
