import WholeMatch.Expr.Language
import WholeMatch.Proofs.Placing
import WholeMatch.Proofs.Simulation

/-!
# The automaton of an expression accepts its language

A path through a combined automaton follows the states of an operand until it leaves them by their
accept state (`Holds.exists_split`), and every path of an operand is one of the combined automaton
(`Holds.path`). So each operator does to the words that automata accept what it does to languages,
and what is assembled from the post-order of an expression accepts exactly its words
(`Expr.accepts_automaton_iff`).
-/

namespace WholeMatch

namespace Automaton

variable {m a b : Automaton} {offset p q r t : Nat} {exits : List Nat} {c : Char}
  {w : List Char}

/-! ### Steps at the ends of operands -/

theorem silentStep_of_edges {edges : List Nat} (known : m.state? q = some { edges })
    (edge : r ∈ edges) : m.SilentStep q r :=
  ⟨_, known, rfl, edge⟩

theorem silentStep_iff_of_edges {edges : List Nat} (known : m.state? q = some { edges }) :
    m.SilentStep q r ↔ r ∈ edges := by
  constructor
  · intro step
    obtain ⟨s, known', _, edge⟩ := step
    rw [known, Option.some.injEq] at known'
    subst known'
    exact edge
  · exact silentStep_of_edges known

theorem not_consumingStep_of_edges {edges : List Nat} (known : m.state? q = some { edges }) :
    ¬ m.ConsumingStep q c r := by
  intro step
  obtain ⟨s, known', label, _⟩ := step
  rw [known, Option.some.injEq] at known'
  subst known'
  cases label

/-- No step leads on from a silent state without edges. -/
theorem Path.eq_of_silent (last : m.state? q = some .silent) (path : m.Path q w t) :
    w = [] ∧ t = q := by
  cases path with
  | refl _ => exact ⟨rfl, rfl⟩
  | silent step _ => exact absurd ((silentStep_iff_of_edges last).1 step) List.not_mem_nil
  | consume step _ => exact absurd step (not_consumingStep_of_edges last)

/-- From a silent state, a path to another state goes along one of its edges. -/
theorem path_iff_of_edges {edges : List Nat} (known : m.state? q = some { edges })
    (elsewhere : t ≠ q) : m.Path q w t ↔ ∃ r ∈ edges, m.Path r w t := by
  constructor
  · intro path
    cases path with
    | refl _ => exact absurd rfl elsewhere
    | @silent q r t w step rest => exact ⟨r, (silentStep_iff_of_edges known).1 step, rest⟩
    | consume step _ => exact absurd step (not_consumingStep_of_edges known)
  · intro onward
    obtain ⟨r, edge, rest⟩ := onward
    exact .silent (silentStep_of_edges known edge) rest

namespace IsOperand

theorem silentStep_lt (ha : a.IsOperand) (step : a.SilentStep p r) : r < a.size := by
  obtain ⟨s, known, _, edge⟩ := step
  exact ha.edges_lt known r edge

theorem consumingStep_lt (ha : a.IsOperand) (step : a.ConsumingStep p c r) : r < a.size := by
  obtain ⟨s, known, _, first⟩ := step
  exact ha.edges_lt known r (List.mem_of_head? first)

end IsOperand

/-! ### Steps of an operand inside a combined automaton -/

namespace Holds

theorem state?_isSome (h : m.Holds offset a exits) (lt : p < a.size) :
    (m.state? (offset + p)).isSome := by
  by_cases last : p = a.accept
  · rw [last, h.exit]
    rfl
  · rw [h.inner p lt last, Option.isSome_map, state?_isSome_iff]
    exact lt

theorem silentStep_iff (h : m.Holds offset a exits) (ha : a.IsOperand) (lt : p < a.size) :
    m.SilentStep (offset + p) r ↔
      (∃ p', r = offset + p' ∧ a.SilentStep p p') ∨ (p = a.accept ∧ r ∈ exits) := by
  by_cases last : p = a.accept
  · subst last
    have stuck (p' : Nat) : ¬ a.SilentStep a.accept p' := by
      rw [silentStep_iff_of_edges ha.state?_accept]
      exact List.not_mem_nil
    rw [silentStep_iff_of_edges h.exit]
    simp [stuck]
  · unfold SilentStep
    rw [h.inner p lt last]
    constructor
    · intro step
      obtain ⟨s, known, label, edge⟩ := step
      obtain ⟨s, found, rfl⟩ := Option.map_eq_some_iff.1 known
      obtain ⟨p', inside, rfl⟩ := List.mem_map.1 edge
      exact .inl ⟨p', rfl, s, found, label, inside⟩
    · intro step
      rcases step with ⟨p', rfl, s, known, label, edge⟩ | ⟨same, _⟩
      · refine ⟨s.shift offset, by rw [known, Option.map_some], label, ?_⟩
        exact List.mem_map_of_mem edge
      · exact absurd same last

theorem consumingStep_iff (h : m.Holds offset a exits) (ha : a.IsOperand) (lt : p < a.size) :
    m.ConsumingStep (offset + p) c r ↔ ∃ p', r = offset + p' ∧ a.ConsumingStep p c p' := by
  by_cases last : p = a.accept
  · subst last
    have stuck := not_consumingStep_of_edges (c := c) (r := r) h.exit
    have stuck' (p' : Nat) := not_consumingStep_of_edges (c := c) (r := p') ha.state?_accept
    simp [stuck, stuck']
  · unfold ConsumingStep
    rw [h.inner p lt last]
    constructor
    · intro step
      obtain ⟨s, known, label, first⟩ := step
      obtain ⟨s, found, rfl⟩ := Option.map_eq_some_iff.1 known
      rw [State.edges_shift, List.head?_map] at first
      obtain ⟨p', inside, rfl⟩ := Option.map_eq_some_iff.1 first
      exact ⟨p', rfl, s, found, label, inside⟩
    · intro step
      obtain ⟨p', rfl, s, known, label, first⟩ := step
      refine ⟨s.shift offset, by rw [known, Option.map_some], label, ?_⟩
      rw [State.edges_shift, List.head?_map, first, Option.map_some]

/-- A path of the operand is one of the combined automaton. -/
theorem path (h : m.Holds offset a exits) (ha : a.IsOperand) (path : a.Path p w q) :
    m.Path (offset + p) w (offset + q) := by
  induction path with
  | refl known => exact .refl (h.state?_isSome (state?_isSome_iff.1 known))
  | @silent p r q w step rest ih =>
    have lt : p < a.size := state?_isSome_iff.1 (Path.silent step rest).source_known
    exact .silent ((h.silentStep_iff ha lt).2 (.inl ⟨r, rfl, step⟩)) ih
  | @consume p r q c w step rest ih =>
    have lt : p < a.size := state?_isSome_iff.1 (Path.consume step rest).source_known
    exact .consume ((h.consumingStep_iff ha lt).2 ⟨r, rfl, step⟩) ih

/-- A path from inside an operand to a state outside or to the operand's accept state gets to this
accept state by a path of the operand. What it consumes after that is any property `K` that the
empty word has if the path may end there, that paths from exits outside have, and that is kept
when an exit leads back inside. -/
theorem exists_split {K : List Char → Prop} (h : m.Holds offset a exits) (ha : a.IsOperand)
    (arrive : ∀ p < a.size, t = offset + p → p = a.accept ∧ K [])
    (leave : ∀ r ∈ exits, (∀ p < a.size, r ≠ offset + p) → ∀ v, m.Path r v t → K v)
    (enter : ∀ p < a.size, offset + p ∈ exits → ∀ u v, a.Path p u a.accept → K v → K (u ++ v))
    (path : m.Path (offset + p) w t) (lt : p < a.size) :
    ∃ u v, w = u ++ v ∧ a.Path p u a.accept ∧ K v := by
  generalize source : offset + p = q at path
  induction path generalizing p with
  | refl _ =>
    obtain ⟨rfl, done⟩ := arrive p lt source.symm
    exact ⟨[], [], rfl, .refl (state?_isSome_iff.2 lt), done⟩
  | @silent q r t w step rest ih =>
    subst source
    rcases (h.silentStep_iff ha lt).1 step with ⟨p', rfl, inside⟩ | ⟨rfl, exit⟩
    · obtain ⟨u, v, rfl, before, after⟩ := ih arrive leave (ha.silentStep_lt inside) rfl
      exact ⟨u, v, rfl, .silent inside before, after⟩
    · refine ⟨[], w, rfl, .refl (state?_isSome_iff.2 lt), ?_⟩
      by_cases outside : ∀ p < a.size, r ≠ offset + p
      · exact leave r exit outside w rest
      · -- the exit leads back inside, and what follows is split again
        simp only [not_forall, Classical.not_not] at outside
        obtain ⟨p', lt', rfl⟩ := outside
        obtain ⟨u, v, rfl, before, after⟩ := ih arrive leave lt' rfl
        exact enter p' lt' exit u v before after
  | @consume q r t c w step rest ih =>
    subst source
    obtain ⟨p', rfl, inside⟩ := (h.consumingStep_iff ha lt).1 step
    obtain ⟨u, v, rfl, before, after⟩ := ih arrive leave (ha.consumingStep_lt inside) rfl
    exact ⟨c :: u, v, rfl, .consume inside before, after⟩

end Holds

/-! ### Words of combined automata -/

/-- The words that paths from the start to the accept state consume. -/
def language (m : Automaton) : Language Char := { w | m.Spells w }

theorem mem_language_iff : w ∈ m.language ↔ m.Path m.start w m.accept := Iff.rfl

theorem language_literal (c : Char) : (literal c).language = {[c]} := by
  ext w
  show (literal c).Path 1 w 0 ↔ w = [c]
  constructor
  · intro path
    cases path with
    | silent step _ =>
      obtain ⟨s, known, label, _⟩ := step
      cases known
      cases label
    | consume step rest =>
      obtain ⟨s, known, label, first⟩ := step
      cases known
      cases label
      cases first
      rw [(rest.eq_of_silent state?_literal_accept).1]
  · intro same
    subst same
    exact .consume ⟨_, state?_literal_start, rfl, rfl⟩ (.refl rfl)

theorem language_concat (ha : a.IsOperand) (hb : b.IsOperand) :
    (a.concat b).language = a.language * b.language := by
  have first := holds_concat_first (b := b) ha
  have second := holds_concat_second ha hb
  ext w
  rw [mem_language_iff, Language.mem_mul]
  constructor
  · intro path
    have split := first.exists_split (K := fun v => v ∈ b.language) ha ?_ ?_ ?_
      (p := a.start) (by rwa [Nat.zero_add]) ha.start_lt
    · obtain ⟨u, v, rfl, before, after⟩ := split
      exact ⟨u, before, v, after, rfl⟩
    · intro p lt same
      rw [accept_concat] at same
      omega
    · intro r exit _ v rest
      rw [List.mem_singleton] at exit
      subst exit
      obtain ⟨u, v, rfl, before, done⟩ := second.exists_split (K := fun v => v = []) hb
        (fun p lt same => ⟨Nat.add_left_cancel same.symm, rfl⟩) (by simp) (by simp) rest
        hb.start_lt
      rw [done, List.append_nil]
      exact before
    · intro p lt exit
      rw [List.mem_singleton] at exit
      omega
  · intro word
    obtain ⟨u, before, v, after, rfl⟩ := word
    have lifted := first.path ha before
    have lifted' := second.path hb after
    rw [Nat.zero_add, Nat.zero_add] at lifted
    have exit : (a.concat b).SilentStep a.accept (a.size + b.start) := by
      rw [← Nat.zero_add a.accept]
      exact silentStep_of_edges first.exit List.mem_cons_self
    exact lifted.append (.silent exit lifted')

/-- An operand whose accept state leads only to the end of the combined automaton. -/
theorem Holds.path_to_end_iff {first : Nat} (h : m.Holds offset a [t]) (ha : a.IsOperand)
    (last : m.state? t = some .silent) (apart : ∀ p < a.size, t ≠ offset + p)
    (enter : first = offset + a.start) : m.Path first w t ↔ w ∈ a.language := by
  subst enter
  constructor
  · intro path
    obtain ⟨u, v, rfl, before, done⟩ := h.exists_split (K := fun v => v = []) ha
      (fun p lt same => absurd same (apart p lt))
      (fun r exit _ v rest => by
        rw [List.mem_singleton] at exit
        subst exit
        exact (rest.eq_of_silent last).1)
      (fun p lt exit => absurd (List.mem_singleton.1 exit).symm (apart p lt)) path ha.start_lt
    rw [done, List.append_nil]
    exact before
  · intro member
    have exit : m.SilentStep (offset + a.accept) t :=
      silentStep_of_edges h.exit List.mem_cons_self
    have path := (h.path ha member).append (.silent exit (.refl (by rw [last]; rfl)))
    rwa [List.append_nil] at path

theorem language_alternate (ha : a.IsOperand) (hb : b.IsOperand) :
    (a.alternate b).language = a.language + b.language := by
  have first := holds_alternate_first (b := b) ha
  have second := holds_alternate_second ha hb
  have into_first (w : List Char) :
      (a.alternate b).Path a.start w (a.size + b.size) ↔ w ∈ a.language :=
    first.path_to_end_iff ha state?_alternate_accept (fun p lt => by omega) (Nat.zero_add _).symm
  have into_second (w : List Char) :
      (a.alternate b).Path (a.size + b.start) w (a.size + b.size) ↔ w ∈ b.language :=
    second.path_to_end_iff hb state?_alternate_accept (fun p lt => by omega) rfl
  ext w
  rw [mem_language_iff, Language.mem_add, ← into_first, ← into_second, start_alternate,
    path_iff_of_edges state?_alternate_start (by rw [accept_alternate]; omega)]
  simp

/-- Words of the operand can be consumed one after the other from any state that leads to its start
and to the end. -/
theorem star_path_flatten (ha : a.IsOperand) {words : List (List Char)}
    (members : ∀ v ∈ words, v ∈ a.language) (again : a.star.SilentStep q a.start)
    (done : a.star.SilentStep q a.size) : a.star.Path q words.flatten a.size := by
  induction words generalizing q with
  | nil => exact .silent done (.refl (by rw [state?_star_accept]; rfl))
  | cons v rest ih =>
    have inner := (holds_star ha).path ha (members v List.mem_cons_self)
    rw [Nat.zero_add, Nat.zero_add] at inner
    have exit := (holds_star ha).exit
    rw [Nat.zero_add] at exit
    have onward := ih (fun v member => members v (List.mem_cons_of_mem _ member))
      (silentStep_of_edges exit (by simp)) (silentStep_of_edges exit (by simp))
    exact .silent again (inner.append onward)

/-- Whatever leads from the start of the operand to the end is a sequence of words of the
operand. -/
theorem star_path_mem_kstar (ha : a.IsOperand) (path : a.star.Path a.start w a.size) :
    w ∈ KStar.kstar a.language := by
  have longer : a.language * KStar.kstar a.language ≤ KStar.kstar a.language := mul_kstar_le_kstar
  -- what remains after the operand has been left is a sequence of its words again
  have split := (holds_star ha).exists_split (K := fun v => v ∈ KStar.kstar a.language)
    (p := a.start) (w := w) (t := a.size) ha ?_ ?_ ?_ (by rwa [Nat.zero_add]) ha.start_lt
  · obtain ⟨u, v, rfl, before, after⟩ := split
    exact longer (Language.append_mem_mul before after)
  · intro p lt same
    omega
  · intro r exit outside v rest
    simp only [List.mem_cons, List.not_mem_nil, or_false] at exit
    rcases exit with rfl | rfl
    · exact absurd (Nat.zero_add a.start).symm (outside a.start ha.start_lt)
    · rw [(rest.eq_of_silent state?_star_accept).1]
      exact Language.nil_mem_kstar a.language
  · intro p lt exit u v before after
    simp only [Nat.zero_add, List.mem_cons, List.not_mem_nil, or_false] at exit
    rcases exit with rfl | rfl
    · exact longer (Language.append_mem_mul before after)
    · exact absurd lt (Nat.lt_irrefl a.size)

theorem language_star (ha : a.IsOperand) : a.star.language = KStar.kstar a.language := by
  ext w
  rw [mem_language_iff, start_star, accept_star]
  constructor
  · intro path
    obtain ⟨r, edge, rest⟩ := (path_iff_of_edges state?_star_start (by omega)).1 path
    simp only [List.mem_cons, List.not_mem_nil, or_false] at edge
    rcases edge with rfl | rfl
    · exact star_path_mem_kstar ha rest
    · rw [(rest.eq_of_silent state?_star_accept).1]
      exact Language.nil_mem_kstar a.language
  · intro member
    obtain ⟨words, rfl, members⟩ := Language.mem_kstar.1 member
    exact star_path_flatten ha members (silentStep_of_edges state?_star_start (by simp))
      (silentStep_of_edges state?_star_start (by simp))

end Automaton

/-- The automaton of an expression accepts the words of the expression. -/
theorem Expr.language_automaton (e : Expr) : e.automaton.language = e.language := by
  induction e with
  | literal c => exact Automaton.language_literal c
  | concat a b iha ihb =>
    rw [automaton, Automaton.language_concat a.isOperand_automaton b.isOperand_automaton, iha, ihb]
    rfl
  | alternate a b iha ihb =>
    rw [automaton, Automaton.language_alternate a.isOperand_automaton b.isOperand_automaton, iha,
      ihb]
    rfl
  | star a iha =>
    rw [automaton, Automaton.language_star a.isOperand_automaton, iha]
    rfl

theorem Expr.accepts_automaton_iff {e : Expr} {subject : String} :
    e.automaton.accepts subject = true ↔ subject.toList ∈ e.language := by
  rw [Automaton.accepts_iff_spells, ← e.language_automaton]
  rfl

/-- The post-order of any expression can be assembled without a limit, and what is assembled accepts
the words of the expression and no others. -/
theorem Postorder.assemble_accepts_language (e : Expr) :
    ∃ m, (e.postorder.assemble none).result = .ok m ∧
      ∀ subject : String, m.accepts subject = true ↔ subject.toList ∈ e.language :=
  ⟨e.automaton, result_assemble_postorder e, fun _ => Expr.accepts_automaton_iff⟩

end WholeMatch
