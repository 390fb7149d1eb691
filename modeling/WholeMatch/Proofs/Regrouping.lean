import WholeMatch.Expr.Factor
import WholeMatch.Proofs.Placing
import WholeMatch.Proofs.Recovery

/-!
# Equal automata

How concatenations are nested leaves no trace in the automaton of an expression, and nothing else
is lost. Both are shown by nesting all concatenations to the right (`Expr.regroup`): this keeps
the automaton as well as the factors, and either of them determines an expression nested in that
way (`Expr.TellsApart`). So two post-orders have the same automaton exactly if their expressions
have the same factors (`Expr.automaton_eq_iff_factors_eq`).
-/

namespace WholeMatch

namespace Automaton

theorem link_beside {a : Automaton} {source : Nat} (lt : source < a.size) (target : Nat)
    (b : Automaton) : (a.link source target).beside b = (a.beside b).link source target := by
  refine ext_state? ?_ rfl rfl
  intro id
  rw [state?_link, state?_beside, state?_beside, state?_link, size_link]
  by_cases same : id = source
  · rw [if_pos same, if_pos same, if_pos (by omega), if_pos (by omega)]
  · rw [if_neg same, if_neg same]

/-- Edges of different states can be added in either order. -/
theorem link_link_comm (m : Automaton) {source source' : Nat} (ne : source ≠ source')
    (target target' : Nat) :
    (m.link source target).link source' target' = (m.link source' target').link source target := by
  refine ext_state? ?_ rfl rfl
  intro id
  rw [state?_link, state?_link, state?_link, state?_link]
  by_cases first : id = source
  · have second : id ≠ source' := by
      rw [first]
      exact ne
    simp only [if_pos first, if_neg second]
  · simp only [if_neg first]

theorem setFragment_beside (a b : Automaton) (f : Fragment) :
    (a.setFragment f).beside b = (a.beside b).setFragment f := rfl

theorem setFragment_link (m : Automaton) (f : Fragment) (source target : Nat) :
    (m.setFragment f).link source target = (m.link source target).setFragment f := rfl

theorem setFragment_setFragment (m : Automaton) (f f' : Fragment) :
    (m.setFragment f).setFragment f' = m.setFragment f' := rfl

/-- The edges between three operands are the same, whichever of them is added first. -/
theorem concat_assoc {a : Automaton} (ha : a.IsOperand) (b c : Automaton) :
    (a.concat b).concat c = a.concat (b.concat c) := by
  have lt : a.accept < (a.beside b).size := by
    have := ha.accept_lt
    rw [size_beside]
    omega
  have apart : a.accept ≠ a.size + b.accept := by
    have := ha.accept_lt
    omega
  have left : (a.concat b).beside c =
      (((a.beside b).beside c).link a.accept (a.size + b.start)).setFragment
        ⟨a.start, a.size + b.accept⟩ := by
    rw [concat, setFragment_beside, link_beside lt]
  have right : a.beside (b.concat c) =
      ((a.beside b).beside c).link (a.size + b.accept) (a.size + b.size + c.start) := by
    rw [beside_concat, Nat.add_assoc]
  calc (a.concat b).concat c
      = (((a.concat b).beside c).link (a.size + b.accept)
          (a.size + b.size + c.start)).setFragment ⟨a.start, a.size + b.size + c.accept⟩ := by
        rw [← size_concat]
        rfl
    _ = ((a.beside (b.concat c)).link a.accept (a.size + b.start)).setFragment
          ⟨a.start, a.size + b.size + c.accept⟩ := by
        rw [left, right, setFragment_link, link_link_comm _ apart, setFragment_setFragment]
    _ = a.concat (b.concat c) := by
        rw [Nat.add_assoc]
        rfl

end Automaton

namespace Expr

/-- Appends `b` to a sequence of factors nested to the right. -/
def followedBy : Expr → Expr → Expr
  | concat first rest, b => concat first (rest.followedBy b)
  | literal c, b => concat (literal c) b
  | alternate a a', b => concat (alternate a a') b
  | star a, b => concat (star a) b

/-- The same expression with all concatenations nested to the right. -/
def regroup : Expr → Expr
  | literal c => literal c
  | concat a b => a.regroup.followedBy b.regroup
  | alternate a b => alternate a.regroup b.regroup
  | star a => star a.regroup

/-- No concatenation has a concatenation as its first operand. -/
inductive RightNested : Expr → Prop
  | literal (c : Char) : RightNested (literal c)
  | concat {a b : Expr} (first : a.outermost ≠ .operator .concat) (ha : RightNested a)
      (hb : RightNested b) : RightNested (concat a b)
  | alternate {a b : Expr} (ha : RightNested a) (hb : RightNested b) : RightNested (alternate a b)
  | star {a : Expr} (ha : RightNested a) : RightNested (star a)

theorem RightNested.followedBy {a b : Expr} (ha : RightNested a) (hb : RightNested b) :
    RightNested (a.followedBy b) := by
  induction ha with
  | literal c => exact .concat (by simp [outermost]) (.literal c) hb
  | concat first ha _ _ ih => exact .concat first ha ih
  | alternate ha ha' => exact .concat (by simp [outermost]) (.alternate ha ha') hb
  | star ha => exact .concat (by simp [outermost]) (.star ha) hb

theorem rightNested_regroup (e : Expr) : e.regroup.RightNested := by
  induction e with
  | literal c => exact .literal c
  | concat a b iha ihb => exact iha.followedBy ihb
  | alternate a b iha ihb => exact .alternate iha ihb
  | star a iha => exact .star iha

/-! ### What regrouping keeps -/

theorem automaton_followedBy (a b : Expr) :
    (a.followedBy b).automaton = a.automaton.concat b.automaton := by
  induction a with
  | concat first rest _ ih =>
    rw [followedBy, automaton, automaton, ih]
    exact (Automaton.concat_assoc first.isOperand_automaton _ _).symm
  | literal c => rfl
  | alternate a a' _ _ => rfl
  | star a _ => rfl

theorem automaton_regroup (e : Expr) : e.regroup.automaton = e.automaton := by
  induction e with
  | literal c => rfl
  | concat a b iha ihb => rw [regroup, automaton_followedBy, iha, ihb, automaton]
  | alternate a b iha ihb => rw [regroup, automaton, iha, ihb, automaton]
  | star a iha => rw [regroup, automaton, iha, automaton]

theorem factors_followedBy (a b : Expr) :
    (a.followedBy b).factors = a.factors ++ b.factors := by
  induction a with
  | concat first rest _ ih => rw [followedBy, factors, factors, ih, List.append_assoc]
  | literal c => rfl
  | alternate a a' _ _ => rfl
  | star a _ => rfl

theorem factors_regroup (e : Expr) : e.regroup.factors = e.factors := by
  induction e with
  | literal c => rfl
  | concat a b iha ihb => rw [regroup, factors_followedBy, iha, ihb, factors]
  | alternate a b iha ihb => rw [regroup, factors, iha, ihb, factors]
  | star a iha => rw [regroup, factors, iha, factors]

/-! ### What determines an expression nested to the right -/

variable {α : Type} {g : Expr → α} {e f : Expr}

/-- What an expression is mapped to shows its last token and what its operands are mapped to. -/
structure TellsApart (g : Expr → α) : Prop where
  outermost : ∀ {e f : Expr}, g e = g f → e.outermost = f.outermost
  concat : ∀ {a b a' b' : Expr}, a.outermost ≠ .operator .concat →
    a'.outermost ≠ .operator .concat → g (concat a b) = g (concat a' b') →
      g a = g a' ∧ g b = g b'
  alternate : ∀ {a b a' b' : Expr}, g (alternate a b) = g (alternate a' b') →
    g a = g a' ∧ g b = g b'
  star : ∀ {a a' : Expr}, g (star a) = g (star a') → g a = g a'

theorem TellsApart.eq_of_rightNested (h : TellsApart g) (he : e.RightNested)
    (hf : f.RightNested) (same : g e = g f) : e = f := by
  have last := h.outermost same
  induction he generalizing f with
  | literal c =>
    cases hf <;> cases last
    rfl
  | concat first _ _ iha ihb =>
    cases hf with
    | concat first' ha' hb' =>
      obtain ⟨same, same'⟩ := h.concat first first' same
      rw [iha ha' same (h.outermost same), ihb hb' same' (h.outermost same')]
    | _ => cases last
  | alternate _ _ iha ihb =>
    cases hf with
    | alternate ha' hb' =>
      obtain ⟨same, same'⟩ := h.alternate same
      rw [iha ha' same (h.outermost same), ihb hb' same' (h.outermost same')]
    | _ => cases last
  | star _ iha =>
    cases hf with
    | star ha' =>
      have same := h.star same
      rw [iha ha' same (h.outermost same)]
    | _ => cases last

theorem TellsApart.eq_iff_regroup_eq (h : TellsApart g) (kept : ∀ e, g e.regroup = g e) :
    g e = g f ↔ e.regroup = f.regroup := by
  constructor
  · intro same
    apply h.eq_of_rightNested e.rightNested_regroup f.rightNested_regroup
    rw [kept, kept, same]
  · intro same
    rw [← kept e, same, kept f]

theorem tellsApart_automaton : TellsApart automaton where
  outermost {e f} same := by
    have last := outermost?_automaton e
    rw [same, outermost?_automaton, Option.some.injEq] at last
    exact last.symm
  concat {a b a' b'} first first' same := by
    have start : a.automaton.start = a'.automaton.start := by
      rw [automaton, automaton] at same
      rw [← Automaton.start_concat (b := b.automaton), same, Automaton.start_concat]
    have size : a.automaton.size = a'.automaton.size := by
      rw [← start_add_one_of_ne_concat first, ← start_add_one_of_ne_concat first', start]
    exact Automaton.concat_inj a.isOperand_automaton b.isOperand_automaton a'.isOperand_automaton
      b'.isOperand_automaton size same
  alternate {a b a' b'} same :=
    Automaton.alternate_inj a.isOperand_automaton b.isOperand_automaton a'.isOperand_automaton
      b'.isOperand_automaton same
  star {a a'} same := Automaton.star_inj a.isOperand_automaton a'.isOperand_automaton same

/-- All but concatenations are a single factor. -/
theorem length_factors_of_ne_concat (ne : e.outermost ≠ .operator .concat) :
    e.factors.length = 1 := by
  cases e with
  | concat a b => exact absurd rfl ne
  | _ => rfl

theorem one_lt_length_factors_concat (a b : Expr) : 1 < (concat a b).factors.length := by
  have first := List.length_pos_iff.2 a.factors_ne_nil
  have second := List.length_pos_iff.2 b.factors_ne_nil
  rw [factors, List.length_append]
  omega

theorem outermost_eq_of_factors_eq (same : e.factors = f.factors) :
    e.outermost = f.outermost := by
  cases e with
  | concat a b =>
    have long := one_lt_length_factors_concat a b
    rw [same] at long
    cases f with
    | concat a' b' => rfl
    | _ => exact absurd long (Nat.lt_irrefl 1)
  | _ =>
    cases f with
    | concat a' b' =>
      have long := one_lt_length_factors_concat a' b'
      rw [← same] at long
      exact absurd long (Nat.lt_irrefl 1)
    | _ => simp_all [factors, outermost]

theorem tellsApart_factors : TellsApart factors where
  outermost := outermost_eq_of_factors_eq
  concat {a b a' b'} first first' same := by
    apply List.append_inj same
    rw [length_factors_of_ne_concat first, length_factors_of_ne_concat first']
  alternate {a b a' b'} same := by
    rw [factors, factors, List.cons.injEq, Factor.alternate.injEq] at same
    exact same.1
  star {a a'} same := by
    rw [factors, factors, List.cons.injEq, Factor.star.injEq] at same
    exact same.1

theorem automaton_eq_iff_factors_eq : e.automaton = f.automaton ↔ e.factors = f.factors := by
  rw [tellsApart_automaton.eq_iff_regroup_eq automaton_regroup,
    tellsApart_factors.eq_iff_regroup_eq factors_regroup]

end Expr

namespace Postorder

/-- Two post-orders that have automata have the same one exactly if their expressions, of which
there is one each, consist of the same factors; so it does not matter how concatenations nest. -/
theorem assemble_eq_iff_factors_eq {p q : Postorder} {m n : Automaton}
    (hp : (p.assemble none).result = .ok m) (hq : (q.assemble none).result = .ok n) :
    (∃ e f : Expr, (∀ e', p = e'.postorder ↔ e' = e) ∧ (∀ f', q = f'.postorder ↔ f' = f) ∧
      (m = n ↔ e.factors = f.factors)) ∧
    ∀ a b c : Expr, ∃ same,
      ((Expr.concat (.concat a b) c).postorder.assemble none).result = .ok same ∧
      ((Expr.concat a (.concat b c)).postorder.assemble none).result = .ok same := by
  constructor
  · obtain ⟨e, rfl, rfl⟩ := result_assemble_eq_ok_iff.1 hp
    obtain ⟨f, rfl, rfl⟩ := result_assemble_eq_ok_iff.1 hq
    refine ⟨e, f, ?_, ?_, Expr.automaton_eq_iff_factors_eq⟩
    · intro e'
      rw [Expr.postorder_inj, eq_comm]
    · intro f'
      rw [Expr.postorder_inj, eq_comm]
  · intro a b c
    refine ⟨_, result_assemble_postorder _, ?_⟩
    rw [Expr.automaton_eq_iff_factors_eq.2 (Expr.factors_assoc a b c)]
    exact result_assemble_postorder _

/-- The case of `ab.c.` and `abc..`. -/
theorem assemble_eq_iff_factors_eq_of_word :
    (∃ e f : Expr,
      (∀ e' : Expr, (⟨[.literal 'a', .literal 'b', .operator .concat, .literal 'c',
        .operator .concat]⟩ : Postorder) = e'.postorder ↔ e' = e) ∧
      (∀ f' : Expr, (⟨[.literal 'a', .literal 'b', .literal 'c', .operator .concat,
        .operator .concat]⟩ : Postorder) = f'.postorder ↔ f' = f) ∧
      (((Automaton.literal 'a').concat (.literal 'b')).concat (.literal 'c') =
        (Automaton.literal 'a').concat ((Automaton.literal 'b').concat (.literal 'c')) ↔
          e.factors = f.factors)) ∧
    ∀ a b c : Expr, ∃ same,
      ((Expr.concat (.concat a b) c).postorder.assemble none).result = .ok same ∧
      ((Expr.concat a (.concat b c)).postorder.assemble none).result = .ok same :=
  assemble_eq_iff_factors_eq
    (result_assemble_postorder (.concat (.concat (.literal 'a') (.literal 'b')) (.literal 'c')))
    (result_assemble_postorder (.concat (.literal 'a') (.concat (.literal 'b') (.literal 'c'))))

end Postorder

end WholeMatch
