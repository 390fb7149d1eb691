import WholeMatch.Proofs.Regrouping

/-!
# The last token of a post-order

All tokens of a post-order are placed in one automaton that grows, fragment by fragment. What comes
of it can also be told from the last token alone: before it stand the post-orders of its operands,
each of which has an automaton of its own, and there is only one way to part them
(`LastStep.IsComplete.exists_ofExpr`). The automaton of the whole lists the states of these, those
of the second operand moved past the first, and then what the token adds (`LastStep.Gives`).
-/

namespace WholeMatch

namespace Automaton

variable {a : Automaton}

/-! ### The states of a combination, one after the other -/

/-- The ends of a new fragment come last. -/
theorem addSilent_addState (m : Automaton) (s : State) :
    m.addSilent.addState s = { m with states := m.states ++ #[.silent, s] } := by
  simp only [addSilent, addState, mk.injEq, and_true]
  rw [Array.push_eq_append, Array.push_eq_append, Array.append_assoc]
  rfl

theorem concat_eq (ha : a.IsOperand) (b : Automaton) :
    a.concat b =
      { states := a.states.modify a.accept (·.link (a.size + b.start)) ++
          b.states.map (State.shift a.size)
        start := a.start
        accept := a.size + b.accept } := by
  rw [concat, ← link_beside ha.accept_lt, beside, size_link]
  rfl

theorem alternate_eq (ha : a.IsOperand) (b : Automaton) :
    a.alternate b =
      { states := a.states.modify a.accept (·.link (a.size + b.size)) ++
          (b.states.map (State.shift a.size)).modify b.accept (·.link (a.size + b.size)) ++
          #[.silent, { edges := [a.start, a.size + b.start] }]
        start := a.size + b.size + 1
        accept := a.size + b.size } := by
  -- The edge is added before the states are moved and has to be found after it.
  have moved : (b.link b.accept b.size).states.map (State.shift a.size) =
      (b.states.map (State.shift a.size)).modify b.accept (·.link (a.size + b.size)) := by
    apply Array.ext_getElem?
    intro id
    rw [link, Array.getElem?_map, Array.getElem?_modify, Array.getElem?_modify, Array.getElem?_map]
    split
    · simp [Function.comp_def]
    · rfl
  have second := beside_link (a.link a.accept (a.size + b.size)) b b.accept b.size
  rw [size_link] at second
  simp only [alternate]
  rw [← link_beside ha.accept_lt, ← second, addSilent_addState, beside, size_link, moved]
  rfl

theorem star_eq (ha : a.IsOperand) :
    a.star =
      { states := a.states.modify a.accept ({ · with edges := [a.start, a.size] }) ++
          #[.silent, { edges := [a.start, a.size] }]
        start := a.size + 1
        accept := a.size } := by
  have free : a.states[a.accept]? = some .silent := ha.state?_accept
  have linked : ((a.link a.accept a.start).link a.accept a.size).states =
      a.states.modify a.accept ({ · with edges := [a.start, a.size] }) := by
    apply Array.ext_getElem?
    intro id
    simp only [link, Array.getElem?_modify]
    split
    next last =>
      rw [← last, free]
      rfl
    next => rfl
  simp only [star]
  rw [addSilent_addState, linked]
  rfl

end Automaton

/-- A post-order parted at its last token into the post-orders of the operands. -/
inductive LastStep where
  | literal (c : Char)
  | concat (first second : Postorder)
  | alternate (first second : Postorder)
  | star (inner : Postorder)

namespace LastStep

/-- The operands one after the other, and then the token. -/
def postorder : LastStep → Postorder
  | literal c => ⟨[.literal c]⟩
  | concat p q => ⟨p.tokens ++ q.tokens ++ [.operator .concat]⟩
  | alternate p q => ⟨p.tokens ++ q.tokens ++ [.operator .alternate]⟩
  | star p => ⟨p.tokens ++ [.operator .star]⟩

/-- The operands. -/
def operands : LastStep → List Postorder
  | literal _ => []
  | concat p q => [p, q]
  | alternate p q => [p, q]
  | star p => [p]

/-- Each operand has an automaton on its own. -/
def IsComplete (step : LastStep) : Prop :=
  ∀ p ∈ step.operands, ∃ m, (p.assemble none).result = .ok m

/-- The automaton that the last token makes of those of the operands. -/
def Gives : LastStep → Automaton → Prop
  | literal c, m =>
    m = { states := #[{}, { label := some c, edges := [0] }], start := 1, accept := 0 }
  | concat p q, m =>
    ∃ a b, (p.assemble none).result = .ok a ∧ (q.assemble none).result = .ok b ∧
      m =
        { states := a.states.modify a.accept (·.link (a.size + b.start)) ++
            b.states.map (State.shift a.size)
          start := a.start
          accept := a.size + b.accept }
  | alternate p q, m =>
    ∃ a b, (p.assemble none).result = .ok a ∧ (q.assemble none).result = .ok b ∧
      m =
        { states := a.states.modify a.accept (·.link (a.size + b.size)) ++
            (b.states.map (State.shift a.size)).modify b.accept (·.link (a.size + b.size)) ++
            #[{}, { edges := [a.start, a.size + b.start] }]
          start := a.size + b.size + 1
          accept := a.size + b.size }
  | star p, m =>
    ∃ a, (p.assemble none).result = .ok a ∧
      m =
        { states := a.states.modify a.accept ({ · with edges := [a.start, a.size] }) ++
            #[{}, { edges := [a.start, a.size] }]
          start := a.size + 1
          accept := a.size }

/-- Parts the post-order of an expression. -/
def ofExpr : Expr → LastStep
  | .literal c => literal c
  | .concat a b => concat a.postorder b.postorder
  | .alternate a b => alternate a.postorder b.postorder
  | .star a => star a.postorder

theorem postorder_ofExpr (e : Expr) : (ofExpr e).postorder = e.postorder := by
  cases e <;> rfl

/-- Operands that have automata are the post-orders of expressions. -/
theorem IsComplete.exists_ofExpr {step : LastStep} (h : step.IsComplete) :
    ∃ e : Expr, step = ofExpr e := by
  have written : ∀ p ∈ step.operands, ∃ e : Expr, p = e.postorder := by
    intro p member
    obtain ⟨m, assembled⟩ := h p member
    obtain ⟨e, same, _⟩ := Postorder.result_assemble_eq_ok_iff.1 assembled
    exact ⟨e, same⟩
  cases step with
  | literal c => exact ⟨.literal c, rfl⟩
  | concat p q =>
    obtain ⟨e, rfl⟩ := written p (by simp [operands])
    obtain ⟨f, rfl⟩ := written q (by simp [operands])
    exact ⟨.concat e f, rfl⟩
  | alternate p q =>
    obtain ⟨e, rfl⟩ := written p (by simp [operands])
    obtain ⟨f, rfl⟩ := written q (by simp [operands])
    exact ⟨.alternate e f, rfl⟩
  | star p =>
    obtain ⟨e, rfl⟩ := written p (by simp [operands])
    exact ⟨.star e, rfl⟩

/-- The last token makes of the automata of its operands that of the expression. -/
theorem gives_ofExpr (e : Expr) : (ofExpr e).Gives e.automaton := by
  cases e with
  | literal c => rfl
  | concat a b =>
    exact ⟨_, _, Postorder.result_assemble_postorder a, Postorder.result_assemble_postorder b,
      Automaton.concat_eq a.isOperand_automaton _⟩
  | alternate a b =>
    exact ⟨_, _, Postorder.result_assemble_postorder a, Postorder.result_assemble_postorder b,
      Automaton.alternate_eq a.isOperand_automaton _⟩
  | star a =>
    exact ⟨_, Postorder.result_assemble_postorder a, Automaton.star_eq a.isOperand_automaton⟩

/-- What the last token gives is what placing all tokens gives. -/
theorem Gives.result_assemble {step : LastStep} {m : Automaton} (h : step.Gives m) :
    (step.postorder.assemble none).result = .ok m := by
  cases step with
  | literal c =>
    subst h
    exact Postorder.result_assemble_postorder (.literal c)
  | concat p q =>
    obtain ⟨a, b, first, second, rfl⟩ := h
    obtain ⟨e, rfl, rfl⟩ := Postorder.result_assemble_eq_ok_iff.1 first
    obtain ⟨f, rfl, rfl⟩ := Postorder.result_assemble_eq_ok_iff.1 second
    have assembled := Postorder.result_assemble_postorder (.concat e f)
    rwa [Expr.automaton, Automaton.concat_eq e.isOperand_automaton] at assembled
  | alternate p q =>
    obtain ⟨a, b, first, second, rfl⟩ := h
    obtain ⟨e, rfl, rfl⟩ := Postorder.result_assemble_eq_ok_iff.1 first
    obtain ⟨f, rfl, rfl⟩ := Postorder.result_assemble_eq_ok_iff.1 second
    have assembled := Postorder.result_assemble_postorder (.alternate e f)
    rwa [Expr.automaton, Automaton.alternate_eq e.isOperand_automaton] at assembled
  | star p =>
    obtain ⟨a, inner, rfl⟩ := h
    obtain ⟨e, rfl, rfl⟩ := Postorder.result_assemble_eq_ok_iff.1 inner
    have assembled := Postorder.result_assemble_postorder (.star e)
    rwa [Expr.automaton, Automaton.star_eq e.isOperand_automaton] at assembled

end LastStep

/-- A post-order has an automaton exactly if it can be parted at its last token into operands that
have automata of their own. This is possible in one way only, and the automaton is what the token
makes of those of the operands. -/
theorem Postorder.assemble_by_last_token {p : Postorder} {m : Automaton} :
    (p.assemble none).result = .ok m ↔
      ∃ step : LastStep, step.postorder = p ∧ step.Gives m ∧
        ∀ other : LastStep, other.postorder = p → other.IsComplete → other = step := by
  constructor
  · intro assembled
    obtain ⟨e, rfl, rfl⟩ := result_assemble_eq_ok_iff.1 assembled
    refine ⟨.ofExpr e, LastStep.postorder_ofExpr e, LastStep.gives_ofExpr e, ?_⟩
    intro other same complete
    obtain ⟨f, rfl⟩ := complete.exists_ofExpr
    rw [LastStep.postorder_ofExpr, Expr.postorder_inj] at same
    rw [same]
  · rintro ⟨step, rfl, gives, _⟩
    exact gives.result_assemble

end WholeMatch
