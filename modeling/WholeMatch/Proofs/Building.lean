import WholeMatch.Pattern
import WholeMatch.Proofs.Conservation
import WholeMatch.Proofs.Counting

/-!
# Building a pattern under a limit

How many states a pattern takes can be told from its characters: two for each but `.` and the
parentheses, since reading keeps every character and each token but a concatenation takes two
(`Pattern.size_of_ofText`). A draft remembers nothing but its text and the limit set last, so what
a build gives depends on no other call, and a limit decides only whether there is something to give
(`Draft.build_among_calls`).
-/

namespace WholeMatch

theorem Token.ofChar_eq_operator_iff {c : Char} {op : Operator} :
    ofChar c = .operator op ↔ c = op.symbol := by
  rw [← Operator.ofSymbol?_eq_some_iff, ofChar]
  cases Operator.ofSymbol? c <;> simp

/-- Every token but a concatenation takes two states. -/
theorem Expr.states_eq_countP (e : Expr) :
    e.states = 2 * e.tokens.countP (· ≠ .operator .concat) := by
  induction e with
  | literal c => rfl
  | concat a b iha ihb => simp [states, tokens, iha, ihb, Nat.mul_add]
  | alternate a b iha ihb => simp [states, tokens, iha, ihb, Nat.mul_add, Nat.add_assoc]
  | star a iha => simp [states, tokens, iha, Nat.mul_add]

/-- Two states for each character but `.` and the parentheses. -/
def Draft.statesOf (text : String) : Nat :=
  2 * text.toList.countP fun c => c != '.' && c != '(' && c != ')'

theorem Infix.countP_tokensOf (pattern : List Char) :
    (tokensOf pattern).countP (· ≠ .operator .concat) =
      pattern.countP fun c => c != '.' && c != '(' && c != ')' := by
  rw [tokensOf, List.countP_map, List.countP_filter]
  congr 1
  funext c
  have concat_iff := @Token.ofChar_eq_operator_iff c .concat
  rw [Bool.eq_iff_iff]
  simp [hasToken, concat_iff, Operator.symbol, and_assoc]

/-- A draft is built by building its parts. -/
theorem Draft.result_build_eq_ok_iff {d : Draft} {p : Pattern} :
    d.build.result = .ok p ↔
      p.text = d.text ∧ (Postorder.ofPattern d.text).result = .ok p.postorder ∧
        (p.postorder.assemble d.limit).result = .ok p.automaton := by
  rw [result_build, bind_eq_ok_iff]
  constructor
  · intro built
    obtain ⟨postorder, read, built⟩ := built
    obtain ⟨automaton, assembled, built⟩ := bind_eq_ok_iff.1 built
    cases built
    exact ⟨rfl, read, assembled⟩
  · intro parts
    obtain ⟨same, read, assembled⟩ := parts
    refine ⟨p.postorder, read, bind_eq_ok_iff.2 ⟨p.automaton, assembled, ?_⟩⟩
    rw [← same]
    rfl

namespace Pattern

variable {text : String} {p : Pattern}

theorem ofText_eq_ok_iff :
    ofText text = .ok p ↔ p.text = text ∧ (Postorder.ofPattern text).result = .ok p.postorder ∧
      (p.postorder.assemble none).result = .ok p.automaton :=
  Draft.result_build_eq_ok_iff

/-- The states of a pattern can be counted on its text. -/
theorem size_of_ofText (h : ofText text = .ok p) : p.automaton.size = Draft.statesOf text := by
  obtain ⟨_, read, assembled⟩ := ofText_eq_ok_iff.1 h
  obtain ⟨e, written, built⟩ := Postorder.result_assemble_eq_ok_iff.1 assembled
  have perm := Postorder.perm_of_result_ofPattern read
  rw [written] at perm
  rw [built, e.size_automaton, e.states_eq_countP, Draft.statesOf, ← Infix.countP_tokensOf]
  exact congrArg (2 * ·) (perm.countP_eq _)

end Pattern

namespace Draft

variable {d : Draft} {p : Pattern}

/-- A limit does not change what is built, it only lets what keeps it be built. -/
theorem result_build_eq_ok_iff_keeps :
    d.build.result = .ok p ↔
      Pattern.ofText d.text = .ok p ∧ ∀ bound, d.limit = some bound → statesOf d.text ≤ bound := by
  have parts : d.build.result = .ok p ↔ Pattern.ofText d.text = .ok p ∧
      ∀ bound, d.limit = some bound → p.automaton.size ≤ bound := by
    rw [result_build_eq_ok_iff, Pattern.ofText_eq_ok_iff,
      Postorder.result_assemble_eq_ok_iff_keeps, and_assoc, and_assoc]
  rw [parts]
  refine and_congr_right fun without => ?_
  rw [Pattern.size_of_ofText without]

/-! ### Calls one after the other -/

/-- The limit that a call sets, if it sets one. -/
def Call.limit? : Call → Option (Option Nat)
  | .withLimit limit => some limit
  | .build => none

/-- The limit that was set last; none if none was set. -/
def lastLimit (calls : List Call) : Option Nat := (calls.filterMap Call.limit?).getLastD none

/-- The draft after some calls. -/
def after (d : Draft) (calls : List Call) : Draft := calls.foldl (fun d c => (d.call c).1) d

theorem callAll_append (d : Draft) (first second : List Call) :
    d.callAll (first ++ second) = d.callAll first ++ (d.after first).callAll second := by
  induction first generalizing d with
  | nil => rfl
  | cons c first ih => rw [List.cons_append, callAll, ih, callAll]; rfl

theorem length_callAll (d : Draft) (calls : List Call) :
    (d.callAll calls).length = calls.length := by
  induction calls generalizing d with
  | nil => rfl
  | cons c calls ih => rw [callAll, List.length_cons, ih, List.length_cons]

/-- Of all that was called, only the last limit is left. -/
theorem after_eq (d : Draft) (calls : List Call) :
    d.after calls = ⟨d.text, (calls.filterMap Call.limit?).getLastD d.limit⟩ := by
  induction calls generalizing d with
  | nil => rfl
  | cons c calls ih =>
    cases c with
    | withLimit limit =>
      show (d.withLimit limit).after calls = _
      have set : (Call.withLimit limit :: calls).filterMap Call.limit? =
          limit :: calls.filterMap Call.limit? := rfl
      rw [ih, set, List.getLastD_cons]
      rfl
    | build => exact ih d

/-- Whatever is called before and after it, a build succeeds if and only if the text can be built
without a limit and takes no more states than the limit set last allows, if one is set. What it
gives is then what is built without a limit. -/
theorem build_among_calls (text : String) (before later : List Call) :
    ∃ outcome,
      (callAll { text } (before ++ .build :: later))[before.length]? = some (some outcome) ∧
      ((∃ p, outcome = .ok p) ↔
        (∃ p, Pattern.ofText text = .ok p) ∧
          ∀ bound, lastLimit before = some bound → statesOf text ≤ bound) ∧
      ∀ p, outcome = .ok p →
        Pattern.ofText text = .ok p ∧ p.text = text ∧
          (Postorder.ofPattern text).result = .ok p.postorder ∧
          (p.postorder.assemble none).result = .ok p.automaton ∧
          p.automaton.size = statesOf text := by
  have state : after { text } before = ⟨text, lastLimit before⟩ := after_eq { text } before
  refine ⟨(Draft.build ⟨text, lastLimit before⟩).result, ?_, ?_, ?_⟩
  · rw [callAll_append, List.getElem?_append_right (Nat.le_of_eq (length_callAll _ _)),
      length_callAll, Nat.sub_self, state]
    rfl
  · simp only [result_build_eq_ok_iff_keeps, exists_and_right]
  · intro p built
    obtain ⟨without, _⟩ := result_build_eq_ok_iff_keeps.1 built
    obtain ⟨same, read, assembled⟩ := Pattern.ofText_eq_ok_iff.1 without
    exact ⟨without, same, read, assembled, Pattern.size_of_ofText without⟩

end Draft

end WholeMatch
