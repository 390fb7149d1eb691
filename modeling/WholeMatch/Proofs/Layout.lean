import WholeMatch.Proofs.Derivation

/-!
# Every way to write an expression is read the same

A `Layout` is an expression together with the parentheses it is written with. It has enough of them
when every operand holds together as tightly as its place asks; more of them do no harm. Layouts
with enough parentheses are what the grammar derives (`isPatternOf_iff_exists_layout`), so all of
an expression are read as its post-order, and of the parentheses nothing is left
(`Derives.perm_symbols`). Operands joined by one operator all come before the operators between
them (`Reads.chain`).
-/

namespace WholeMatch.Infix

/-! ### Looser forms -/

namespace Derives

variable {form : Form} {s : List Char} {e : Expr}

theorem to_repetition (h : Derives form s e) (tight : Operator.star.precedence ≤ form.level) :
    Derives .repetition s e := by
  cases form with
  | choice => exact absurd tight (by decide)
  | chain => exact absurd tight (by decide)
  | repetition => exact h
  | atom => exact .atom h

theorem to_chain (h : Derives form s e) (tight : Operator.concat.precedence ≤ form.level) :
    Derives .chain s e := by
  cases form with
  | choice => exact absurd tight (by decide)
  | chain => exact h
  | repetition => exact .repetition h
  | atom => exact .repetition (.atom h)

theorem to_choice (h : Derives form s e) : IsPatternOf s e := by
  cases form with
  | choice => exact h
  | chain => exact .chain h
  | repetition => exact .chain (.repetition h)
  | atom => exact to_choice_of_atom h

end Derives

/-! ### Expressions with their parentheses -/

/-- An expression and the parentheses it is written with. -/
inductive Layout where
  | literal (c : Char) (plain : IsLiteral c)
  | concat (a b : Layout)
  | alternate (a b : Layout)
  | star (a : Layout)
  /-- What stands in a pair of parentheses. -/
  | group (a : Layout)

namespace Layout

/-- The characters as they are written. -/
def text : Layout → List Char
  | literal c _ => [c]
  | concat a b => a.text ++ '.' :: b.text
  | alternate a b => a.text ++ '|' :: b.text
  | star a => a.text ++ ['*']
  | group a => '(' :: a.text ++ [')']

/-- The expression, without its parentheses. -/
def expr : Layout → Expr
  | literal c _ => .literal c
  | concat a b => .concat a.expr b.expr
  | alternate a b => .alternate a.expr b.expr
  | star a => .star a.expr
  | group a => a.expr

/-- The tightest form in which the characters can be taken as a whole. -/
def form : Layout → Form
  | literal _ _ => .atom
  | concat _ _ => .chain
  | alternate _ _ => .choice
  | star _ => .repetition
  | group _ => .atom

/-- No parentheses are missing: the second operand of a chain may be a chain of the same operator,
the first one has to be tighter, and only what is as tight as a star can have one. -/
def Enough : Layout → Prop
  | literal _ _ => True
  | concat a b =>
    a.Enough ∧ b.Enough ∧ Operator.concat.precedence < a.form.level ∧
      Operator.concat.precedence ≤ b.form.level
  | alternate a b =>
    a.Enough ∧ b.Enough ∧ Operator.alternate.precedence < a.form.level ∧
      Operator.alternate.precedence ≤ b.form.level
  | star a => a.Enough ∧ Operator.star.precedence ≤ a.form.level
  | group a => a.Enough

theorem Enough.derives {l : Layout} (h : l.Enough) : Derives l.form l.text l.expr := by
  induction l with
  | literal c plain => exact .literal plain
  | concat a b iha ihb =>
    obtain ⟨ha, hb, tighter, tight⟩ := h
    exact .concat ((iha ha).to_repetition tighter) ((ihb hb).to_chain tight)
  | alternate a b iha ihb =>
    obtain ⟨ha, hb, tighter, _⟩ := h
    exact .alternate ((iha ha).to_chain tighter) (ihb hb).to_choice
  | star a iha =>
    obtain ⟨ha, tight⟩ := h
    exact .star ((iha ha).to_repetition tight)
  | group a iha => exact .group (iha h).to_choice

end Layout

variable {s : List Char} {e : Expr}

/-- Whatever is derived is written with enough parentheses. -/
theorem Derives.exists_layout {form : Form} (h : Derives form s e) :
    ∃ l : Layout, l.Enough ∧ form.level ≤ l.form.level ∧ l.text = s ∧ l.expr = e := by
  induction h with
  | chain _ ih =>
    obtain ⟨l, enough, tight, same⟩ := ih
    exact ⟨l, enough, Nat.le_trans (by decide) tight, same⟩
  | alternate _ _ ihs iht =>
    obtain ⟨a, ha, tighter, rfl, rfl⟩ := ihs
    obtain ⟨b, hb, tight, rfl, rfl⟩ := iht
    exact ⟨.alternate a b, ⟨ha, hb, tighter, tight⟩, Nat.le_refl _, rfl, rfl⟩
  | repetition _ ih =>
    obtain ⟨l, enough, tight, same⟩ := ih
    exact ⟨l, enough, Nat.le_trans (by decide) tight, same⟩
  | concat _ _ ihs iht =>
    obtain ⟨a, ha, tighter, rfl, rfl⟩ := ihs
    obtain ⟨b, hb, tight, rfl, rfl⟩ := iht
    exact ⟨.concat a b, ⟨ha, hb, tighter, tight⟩, Nat.le_refl _, rfl, rfl⟩
  | atom _ ih => exact ih
  | star _ ih =>
    obtain ⟨a, ha, tight, rfl, rfl⟩ := ih
    exact ⟨.star a, ⟨ha, tight⟩, Nat.le_refl _, rfl, rfl⟩
  | @literal c plain => exact ⟨.literal c plain, trivial, Nat.le_refl _, rfl, rfl⟩
  | group _ ih =>
    obtain ⟨a, ha, _, rfl, rfl⟩ := ih
    exact ⟨.group a, ha, Nat.le_refl _, rfl, rfl⟩

/-- The patterns of an expression are the ways to write it with enough parentheses. -/
theorem isPatternOf_iff_exists_layout :
    IsPatternOf s e ↔ ∃ l : Layout, l.Enough ∧ l.text = s ∧ l.expr = e := by
  constructor
  · intro h
    obtain ⟨l, enough, _, same⟩ := h.exists_layout
    exact ⟨l, enough, same⟩
  · intro written
    obtain ⟨l, enough, rfl, rfl⟩ := written
    exact enough.derives.to_choice

/-! ### What becomes of the characters -/

/-- Tells whether a character becomes a token; parentheses do not. -/
def hasToken (c : Char) : Bool := c != '(' && c != ')'

theorem hasToken_of_isLiteral {c : Char} (h : IsLiteral c) : hasToken c = true := by
  simp [hasToken, h.1, h.2.1]

theorem hasToken_symbol (op : Operator) : hasToken op.symbol = true := by
  cases op <;> rfl

/-- Between its operands or after them, an operator is the same one character. -/
theorem perm_symbols_join {first second : List Token} {s t : List Char}
    (hs : (first.map Token.symbol).Perm (s.filter hasToken))
    (ht : (second.map Token.symbol).Perm (t.filter hasToken)) (op : Operator) :
    ((first ++ second ++ [Token.operator op]).map Token.symbol).Perm
      ((s ++ op.symbol :: t).filter hasToken) := by
  rw [List.filter_append, List.filter_cons_of_pos (hasToken_symbol op), List.map_append,
    List.map_append]
  have last : (first.map Token.symbol ++ second.map Token.symbol ++ [op.symbol]).Perm
      (op.symbol :: (s.filter hasToken ++ t.filter hasToken)) :=
    List.perm_append_comm.trans ((hs.append ht).cons op.symbol)
  exact last.trans List.perm_middle.symm

/-- The tokens are all characters but the parentheses, each of them once. -/
theorem Derives.perm_symbols {form : Form} (h : Derives form s e) :
    (e.tokens.map Token.symbol).Perm (s.filter hasToken) := by
  induction h with
  | chain _ ih => exact ih
  | alternate _ _ ihs iht => exact perm_symbols_join ihs iht .alternate
  | repetition _ ih => exact ih
  | concat _ _ ihs iht => exact perm_symbols_join ihs iht .concat
  | atom _ ih => exact ih
  | star _ ih =>
    rw [List.filter_append, Expr.tokens, List.map_append]
    exact ih.append_right ['*']
  | @literal c plain =>
    rw [List.filter_cons_of_pos (hasToken_of_isLiteral plain)]
    exact .refl [c]
  | @group s e _ ih =>
    have inner : ('(' :: s ++ [')']).filter hasToken = s.filter hasToken := by
      rw [List.cons_append, List.filter_cons_of_neg (by decide), List.filter_append,
        List.filter_cons_of_neg (by decide), List.filter_nil, List.append_nil]
    rw [inner]
    exact ih

/-! ### Reading -/

namespace Reads

variable {level : Nat} {tokens : List Token}

theorem result_ofPattern (h : Reads level s tokens) :
    (Postorder.ofPattern (String.ofList s)).result = .ok ⟨tokens⟩ := by
  obtain ⟨balanced, read⟩ := h.ofPattern
  rw [Postorder.result_ofPattern, String.toList_ofList, balanced, read]

/-- Operands joined by one operator are all read before the operators leave. -/
theorem chain (op : Operator) (weaker : op.precedence < level)
    {pieces : List (List Char × List Token)} (some_piece : pieces ≠ [])
    (each : ∀ p ∈ pieces, Reads level p.1 p.2) :
    Reads op.precedence ([op.symbol].intercalate (pieces.map (·.1)))
      (pieces.flatMap (·.2) ++ .replicate (pieces.length - 1) (.operator op)) := by
  induction pieces with
  | nil => exact absurd rfl some_piece
  | cons p pieces ih =>
    have first := each p List.mem_cons_self
    cases pieces with
    | nil => simpa [List.intercalate] using first.mono (Nat.le_of_lt weaker)
    | cons q pieces =>
      have rest := ih (List.cons_ne_nil q pieces) fun r member =>
        each r (List.mem_cons_of_mem p member)
      have joined := first.join op weaker rest
      have text : [op.symbol].intercalate ((p :: q :: pieces).map (·.1)) =
          p.1 ++ op.symbol :: [op.symbol].intercalate ((q :: pieces).map (·.1)) := by
        simp [List.intercalate_cons_cons]
      have tokens : (p :: q :: pieces).flatMap (·.2) ++
            .replicate ((p :: q :: pieces).length - 1) (.operator op) =
          p.2 ++ ((q :: pieces).flatMap (·.2) ++
            .replicate ((q :: pieces).length - 1) (.operator op)) ++ [.operator op] := by
        simp [List.replicate_succ']
      rw [text, tokens]
      exact joined

end Reads

end WholeMatch.Infix

namespace WholeMatch.Postorder

open Infix

/-- However an expression is written, with enough parentheses it is read as its post-order. -/
theorem result_ofPattern_text {l : Layout} (h : l.Enough) :
    (ofPattern (String.ofList l.text)).result = .ok l.expr.postorder := by
  apply result_ofPattern_of_isPatternOf
  rw [String.toList_ofList]
  exact isPatternOf_iff_exists_layout.2 ⟨l, h, rfl, rfl⟩

/-- Of operands joined by one operator, all come before the operators between them. -/
theorem result_ofPattern_chain (op : Operator) {operands : List Layout}
    (some_operand : operands ≠ [])
    (each : ∀ l ∈ operands, l.Enough ∧ op.precedence < l.form.level) :
    (ofPattern (String.ofList ([op.symbol].intercalate (operands.map (·.text))))).result =
      .ok ⟨operands.flatMap (·.expr.tokens) ++
        .replicate (operands.length - 1) (.operator op)⟩ := by
  have pieces_read : ∀ p ∈ operands.map (fun l => (l.text, l.expr.tokens)),
      Reads (op.precedence + 1) p.1 p.2 := by
    intro p member
    obtain ⟨l, listed, rfl⟩ := List.mem_map.1 member
    obtain ⟨enough, tighter⟩ := each l listed
    exact enough.derives.reads.mono tighter
  have some_piece : operands.map (fun l => (l.text, l.expr.tokens)) ≠ [] :=
    fun none => some_operand (List.map_eq_nil_iff.1 none)
  have read := (Reads.chain op (Nat.lt_succ_self _) some_piece pieces_read).result_ofPattern
  simpa only [List.map_map, List.flatMap_map, List.length_map, Function.comp_def] using read

/-- A star belongs to the operand before it alone, and `.` joins before `|`, on either side. -/
theorem result_ofPattern_mixed {a b c : Layout} (ha : a.Enough) (hb : b.Enough) (hc : c.Enough)
    (tight_a : Operator.star.precedence ≤ a.form.level)
    (tight_b : Operator.star.precedence ≤ b.form.level)
    (tight_c : Operator.star.precedence ≤ c.form.level) :
    (ofPattern (String.ofList (a.text ++ '|' :: (b.text ++ '.' :: (c.text ++ ['*']))))).result =
      .ok ⟨a.expr.tokens ++ (b.expr.tokens ++ (c.expr.tokens ++ [.operator .star]) ++
        [.operator .concat]) ++ [.operator .alternate]⟩ ∧
    (ofPattern (String.ofList (((a.text ++ ['*']) ++ '.' :: b.text) ++ '|' :: c.text))).result =
      .ok ⟨((a.expr.tokens ++ [.operator .star]) ++ b.expr.tokens ++ [.operator .concat]) ++
        c.expr.tokens ++ [.operator .alternate]⟩ := by
  have concat_lt : Operator.concat.precedence < Operator.star.precedence := by decide
  have alternate_lt : Operator.alternate.precedence < Operator.concat.precedence := by decide
  have alternate_lt' := Nat.lt_trans alternate_lt concat_lt
  constructor
  · have second : (Layout.concat b (.star c)).Enough :=
      ⟨hb, ⟨hc, tight_c⟩, Nat.lt_of_lt_of_le concat_lt tight_b, Nat.le_of_lt concat_lt⟩
    have enough : (Layout.alternate a (.concat b (.star c))).Enough :=
      ⟨ha, second, Nat.lt_of_lt_of_le alternate_lt' tight_a, Nat.le_of_lt alternate_lt⟩
    have read := result_ofPattern_text enough
    exact read
  · have first : (Layout.concat (.star a) b).Enough :=
      ⟨⟨ha, tight_a⟩, hb, concat_lt, Nat.le_trans (Nat.le_of_lt concat_lt) tight_b⟩
    have enough : (Layout.alternate (.concat (.star a) b) c).Enough :=
      ⟨first, hc, alternate_lt, Nat.le_trans (Nat.le_of_lt alternate_lt') tight_c⟩
    have read := result_ofPattern_text enough
    exact read

/-- What the grammar derives is put into the post-order of the expression it is derived for. Of its
characters only the parentheses vanish, and every other layout of the expression with enough
parentheses, or more, gives the same. Of operands joined by one operator, all come before the
operators between them; a star belongs to the operand before it alone, and `.` joins before `|`. -/
theorem ofPattern_follows_structure {pattern : String} {e : Expr}
    (h : IsPatternOf pattern.toList e) :
    (ofPattern pattern).result = .ok e.postorder ∧
    (e.postorder.text.toList).Perm (pattern.toList.filter hasToken) ∧
    (∀ l : Layout, l.Enough → l.expr = e →
      (ofPattern (String.ofList l.text)).result = .ok e.postorder) ∧
    (∀ (op : Operator) (operands : List Layout), operands ≠ [] →
      (∀ l ∈ operands, l.Enough ∧ op.precedence < l.form.level) →
      (ofPattern (String.ofList ([op.symbol].intercalate (operands.map (·.text))))).result =
        .ok ⟨operands.flatMap (·.expr.tokens) ++
          .replicate (operands.length - 1) (.operator op)⟩) ∧
    (∀ a b c : Layout,
      (∀ l ∈ [a, b, c], l.Enough ∧ Operator.star.precedence ≤ l.form.level) →
      (ofPattern (String.ofList (a.text ++ '|' :: (b.text ++ '.' :: (c.text ++ ['*']))))).result =
        .ok ⟨a.expr.tokens ++ (b.expr.tokens ++ (c.expr.tokens ++ [.operator .star]) ++
          [.operator .concat]) ++ [.operator .alternate]⟩ ∧
      (ofPattern (String.ofList (((a.text ++ ['*']) ++ '.' :: b.text) ++ '|' :: c.text))).result =
        .ok ⟨((a.expr.tokens ++ [.operator .star]) ++ b.expr.tokens ++ [.operator .concat]) ++
          c.expr.tokens ++ [.operator .alternate]⟩) := by
  refine ⟨result_ofPattern_of_isPatternOf h, ?_, ?_, ?_, ?_⟩
  · rw [toList_text]
    exact h.perm_symbols
  · intro l enough same
    rw [result_ofPattern_text enough, same]
  · intro op operands some_operand each
    exact result_ofPattern_chain op some_operand each
  · intro a b c each
    obtain ⟨ha, tight_a⟩ := each a (by simp)
    obtain ⟨hb, tight_b⟩ := each b (by simp)
    obtain ⟨hc, tight_c⟩ := each c (by simp)
    exact result_ofPattern_mixed ha hb hc tight_a tight_b tight_c

/-- A star around a chain in doubled parentheses, in a chain below an alternation. -/
theorem ofPattern_follows_structure_nested :
    IsPatternOf "a|((b.c))*.d".toList
      (.alternate (.literal 'a')
        (.concat (.star (.concat (.literal 'b') (.literal 'c'))) (.literal 'd'))) ∧
    (ofPattern "a|((b.c))*.d").result =
      .ok ⟨[.literal 'a', .literal 'b', .literal 'c', .operator .concat, .operator .star,
        .literal 'd', .operator .concat, .operator .alternate]⟩ := by
  have enough : (Layout.alternate (.literal 'a' (by decide)) (.concat
      (.star (.group (.group (.concat (.literal 'b' (by decide)) (.literal 'c' (by decide))))))
      (.literal 'd' (by decide)))).Enough := by
    simp [Layout.Enough, Layout.form, Form.level, Operator.precedence]
  have derived : IsPatternOf "a|((b.c))*.d".toList (.alternate (.literal 'a')
      (.concat (.star (.concat (.literal 'b') (.literal 'c'))) (.literal 'd'))) :=
    isPatternOf_iff_exists_layout.2 ⟨_, enough, rfl, rfl⟩
  exact ⟨derived, (ofPattern_follows_structure derived).1⟩

end WholeMatch.Postorder
