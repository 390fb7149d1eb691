import Mathlib.Logic.Relation
import WholeMatch.Proofs.Counting

/-!
# The shape of an assembled automaton

Nothing in an assembled automaton is idle: each state but the accept state has an edge to go on by,
the start can be left for every state, and from every state the end can be reached
(`Automaton.IsTrim`). Each operator keeps this, since it only adds edges from the ends of its
operands, which had none: what led from one state of an operand to another still does
(`Automaton.Holds.leads`).
-/

namespace WholeMatch

/-- A state that leads on has an edge, and no more of them than its kind may have. -/
def State.LeadsOn (s : State) : Prop := s.edges ≠ [] ∧ s.edges.length ≤ s.capacity

namespace State

variable {s : State}

theorem LeadsOn.shift (h : s.LeadsOn) (offset : Nat) : (s.shift offset).LeadsOn := by
  obtain ⟨some_edge, room⟩ := h
  refine ⟨?_, ?_⟩
  · rwa [edges_shift, Ne, List.map_eq_nil_iff]
  · rwa [edges_shift, List.length_map]

theorem LeadsOn.length_eq_one (h : s.LeadsOn) (labeled : s.isSilent = false) :
    s.edges.length = 1 := by
  obtain ⟨some_edge, room⟩ := h
  have := List.length_pos_iff.2 some_edge
  rw [capacity, labeled] at room
  exact Nat.le_antisymm room this

theorem LeadsOn.length_le_two (h : s.LeadsOn) : s.edges.length ≤ 2 := by
  refine Nat.le_trans h.2 ?_
  unfold capacity
  split <;> decide

end State

namespace Automaton

variable {m a b : Automaton} {offset id q r t : Nat} {exits : List Nat} {s : State}

/-- Some edge leads from `q` to `r`, whether it consumes a character or not. -/
def Edge (m : Automaton) (q r : Nat) : Prop := ∃ s, m.state? q = some s ∧ r ∈ s.edges

/-- Following edges, one gets from one state to another. -/
abbrev Leads (m : Automaton) : Nat → Nat → Prop := Relation.ReflTransGen m.Edge

/-- All states but the accept state lead on, the start is only left, and everything lies between
the start and the accept state. -/
structure IsTrim (m : Automaton) : Prop where
  leadsOn : ∀ {id : Nat} {s : State}, m.state? id = some s → id ≠ m.accept → s.LeadsOn
  ne_start : ∀ {q r : Nat}, m.Edge q r → r ≠ m.start
  leads_from_start : ∀ {id : Nat}, id < m.size → m.Leads m.start id
  leads_to_accept : ∀ {id : Nat}, id < m.size → m.Leads id m.accept

theorem Edge.source_lt (h : m.Edge q r) : q < m.size := by
  obtain ⟨s, known, _⟩ := h
  exact lt_size_of_state? known

theorem edge_of_edges {edges : List Nat} (known : m.state? q = some { edges }) (edge : r ∈ edges) :
    m.Edge q r :=
  ⟨_, known, edge⟩

theorem edge_iff_of_edges {edges : List Nat} (known : m.state? q = some { edges }) :
    m.Edge q r ↔ r ∈ edges := by
  simp [Edge, known]

theorem IsOperand.target_lt (h : m.IsOperand) (edge : m.Edge q r) : r < m.size := by
  obtain ⟨s, known, edge⟩ := edge
  exact h.edges_lt known r edge

/-- Beside each other, automata keep their edges and get no others. -/
theorem edge_beside_iff :
    (a.beside b).Edge q r ↔
      a.Edge q r ∨ ∃ q' r', q = a.size + q' ∧ r = a.size + r' ∧ b.Edge q' r' := by
  by_cases first : q < a.size
  · have apart : ∀ q', q ≠ a.size + q' := by omega
    simp [Edge, state?_beside_of_lt first, apart]
  · obtain ⟨q, rfl⟩ := Nat.exists_eq_add_of_le (Nat.not_lt.1 first)
    have outside : ¬ a.Edge (a.size + q) r := fun edge => first edge.source_lt
    simp only [outside, false_or, Nat.add_left_cancel_iff, exists_and_left, exists_eq_left']
    constructor
    · rintro ⟨s, known, edge⟩
      rw [state?_beside_add, Option.map_eq_some_iff] at known
      obtain ⟨s, known, rfl⟩ := known
      obtain ⟨r, inside, rfl⟩ := List.mem_map.1 edge
      exact ⟨r, rfl, s, known, inside⟩
    · rintro ⟨r, rfl, s, known, inside⟩
      refine ⟨s.shift a.size, ?_, List.mem_map_of_mem inside⟩
      rw [state?_beside_add, known, Option.map_some]

/-! ### Operands inside a combined automaton -/

namespace Holds

theorem edge_exit (h : m.Holds offset a exits) (exit : t ∈ exits) :
    m.Edge (offset + a.accept) t :=
  edge_of_edges h.exit exit

/-- The edges of the states of an operand are those it had, and the exits. -/
theorem edge_iff (h : m.Holds offset a exits) (operand : a.IsOperand) (lt : q < a.size) :
    m.Edge (offset + q) t ↔
      (∃ r, t = offset + r ∧ a.Edge q r) ∨ (q = a.accept ∧ t ∈ exits) := by
  by_cases last : q = a.accept
  · subst last
    simp [edge_iff_of_edges h.exit, edge_iff_of_edges operand.state?_accept]
  · simp only [Edge, h.inner q lt last, Option.map_eq_some_iff, last, false_and, or_false]
    constructor
    · intro edge
      obtain ⟨_, ⟨s, known, rfl⟩, edge⟩ := edge
      obtain ⟨r, inside, rfl⟩ := List.mem_map.1 edge
      exact ⟨r, rfl, s, known, inside⟩
    · intro edge
      obtain ⟨r, rfl, s, known, inside⟩ := edge
      exact ⟨_, ⟨s, known, rfl⟩, List.mem_map_of_mem inside⟩

/-- What leads somewhere in an operand does so where the operand stands. -/
theorem leads (h : m.Holds offset a exits) (operand : a.IsOperand) (path : a.Leads q r) :
    m.Leads (offset + q) (offset + r) :=
  path.lift (offset + ·) fun _ _ edge =>
    (h.edge_iff operand edge.source_lt).2 (.inl ⟨_, rfl, edge⟩)

/-- Edges stay below a bound that leaves room for the operand and its exits. -/
theorem target_lt {bound : Nat} (h : m.Holds offset a exits) (operand : a.IsOperand)
    (room : offset + a.size ≤ bound) (exits_lt : ∀ t ∈ exits, t < bound) (lt : q < a.size)
    (edge : m.Edge (offset + q) t) : t < bound := by
  obtain ⟨s, known, edge⟩ := edge
  exact h.edges_lt operand room exits_lt lt known edge

theorem leadsOn (h : m.Holds offset a exits) (trim : a.IsTrim) (lt : id < a.size)
    (known : m.state? (offset + id) = some s)
    (last : id = a.accept → exits ≠ [] ∧ exits.length ≤ 2) : s.LeadsOn := by
  by_cases same : id = a.accept
  · rw [same, h.exit, Option.some.injEq] at known
    subst known
    exact last same
  · rw [h.inner id lt same, Option.map_eq_some_iff] at known
    obtain ⟨s, known, rfl⟩ := known
    exact (trim.leadsOn known same).shift offset

end Holds

/-! ### Each operator keeps the shape -/

theorem isTrim_literal (c : Char) : (literal c).IsTrim := by
  have edge : (literal c).Edge 1 0 := ⟨_, state?_literal_start, List.mem_singleton_self 0⟩
  have ids {id : Nat} (lt : id < (literal c).size) : id = 0 ∨ id = 1 := by
    rw [size_literal] at lt
    omega
  constructor
  case leadsOn =>
    intro id s known ne
    rcases ids (lt_size_of_state? known) with rfl | rfl
    · exact absurd rfl ne
    · cases known
      exact ⟨List.cons_ne_nil 0 [], Nat.le_refl 1⟩
  case ne_start =>
    intro q r edge
    obtain ⟨s, known, edge⟩ := edge
    rcases ids (lt_size_of_state? known) with rfl | rfl
    · cases known
      exact absurd edge List.not_mem_nil
    · cases known
      rw [List.mem_singleton.1 edge]
      exact Nat.zero_ne_one
  case leads_from_start =>
    intro id lt
    rcases ids lt with rfl | rfl
    · exact .single edge
    · exact .refl
  case leads_to_accept =>
    intro id lt
    rcases ids lt with rfl | rfl
    · exact .refl
    · exact .single edge

theorem IsTrim.concat (ha : a.IsOperand) (hb : b.IsOperand) (ta : a.IsTrim) (tb : b.IsTrim) :
    (a.concat b).IsTrim := by
  have first := holds_concat_first (b := b) ha
  have second := holds_concat_second ha hb
  have join : (a.concat b).Edge a.accept (a.size + b.start) := by
    simpa using first.edge_exit (List.mem_singleton_self (a.size + b.start))
  have inFirst {q r : Nat} (path : a.Leads q r) : (a.concat b).Leads q r := by
    simpa using first.leads ha path
  have split {id : Nat} (lt : id < (a.concat b).size) :
      id < a.size ∨ ∃ id', id = a.size + id' ∧ id' < b.size := by
    rw [size_concat] at lt
    by_cases inside : id < a.size
    · exact .inl inside
    · exact .inr ⟨id - a.size, by omega, by omega⟩
  constructor
  case leadsOn =>
    intro id s known ne
    rcases split (lt_size_of_state? known) with inside | ⟨id, rfl, inside⟩
    · rw [← Nat.zero_add id] at known
      exact first.leadsOn ta inside known fun _ => ⟨List.cons_ne_nil _ _, Nat.le_succ 1⟩
    · exact second.leadsOn tb inside known fun same => absurd (by rw [same, accept_concat]) ne
  case ne_start =>
    intro q r edge
    have start_lt := ha.start_lt
    rw [start_concat]
    rcases split edge.source_lt with inside | ⟨q, rfl, inside⟩
    · rw [← Nat.zero_add q, first.edge_iff ha inside] at edge
      rcases edge with ⟨r, rfl, edge⟩ | ⟨_, exit⟩
      · simpa using ta.ne_start edge
      · rw [List.mem_singleton] at exit
        omega
    · rw [second.edge_iff hb inside] at edge
      rcases edge with ⟨r, rfl, _⟩ | ⟨_, exit⟩
      · omega
      · exact absurd exit List.not_mem_nil
  case leads_from_start =>
    intro id lt
    rcases split lt with inside | ⟨id, rfl, inside⟩
    · exact inFirst (ta.leads_from_start inside)
    · have across := (inFirst (ta.leads_from_start ha.accept_lt)).tail join
      exact across.trans (second.leads hb (tb.leads_from_start inside))
  case leads_to_accept =>
    intro id lt
    rcases split lt with inside | ⟨id, rfl, inside⟩
    · have across := (inFirst (ta.leads_to_accept inside)).tail join
      exact across.trans (second.leads hb (tb.leads_to_accept hb.start_lt))
    · exact second.leads hb (tb.leads_to_accept inside)

theorem IsTrim.alternate (ha : a.IsOperand) (hb : b.IsOperand) (ta : a.IsTrim) (tb : b.IsTrim) :
    (a.alternate b).IsTrim := by
  have first := holds_alternate_first (b := b) ha
  have second := holds_alternate_second ha hb
  have inFirst {q r : Nat} (path : a.Leads q r) : (a.alternate b).Leads q r := by
    simpa using first.leads ha path
  have enter_first : (a.alternate b).Edge (a.size + b.size + 1) a.start :=
    edge_of_edges state?_alternate_start (by simp)
  have enter_second : (a.alternate b).Edge (a.size + b.size + 1) (a.size + b.start) :=
    edge_of_edges state?_alternate_start (by simp)
  have leave_first : (a.alternate b).Edge a.accept (a.size + b.size) := by
    simpa using first.edge_exit (List.mem_singleton_self (a.size + b.size))
  have leave_second := second.edge_exit (List.mem_singleton_self (a.size + b.size))
  have through : (a.alternate b).Leads a.start (a.size + b.size) :=
    (inFirst (ta.leads_to_accept ha.start_lt)).tail leave_first
  have split {id : Nat} (lt : id < (a.alternate b).size) :
      id < a.size ∨ (∃ id', id = a.size + id' ∧ id' < b.size) ∨ id = a.size + b.size ∨
        id = a.size + b.size + 1 := by
    rw [size_alternate] at lt
    by_cases inside : id < a.size
    · exact .inl inside
    by_cases inside' : id < a.size + b.size
    · exact .inr (.inl ⟨id - a.size, by omega, by omega⟩)
    · omega
  constructor
  case leadsOn =>
    intro id s known ne
    rcases split (lt_size_of_state? known) with inside | ⟨id, rfl, inside⟩ | rfl | rfl
    · rw [← Nat.zero_add id] at known
      exact first.leadsOn ta inside known fun _ => ⟨List.cons_ne_nil _ _, Nat.le_succ 1⟩
    · exact second.leadsOn tb inside known fun _ => ⟨List.cons_ne_nil _ _, Nat.le_succ 1⟩
    · exact absurd rfl ne
    · rw [state?_alternate_start, Option.some.injEq] at known
      subst known
      exact ⟨List.cons_ne_nil _ _, Nat.le_refl 2⟩
  case ne_start =>
    intro q r edge
    have start_lt := ha.start_lt
    have start_lt' := hb.start_lt
    apply Nat.ne_of_lt
    rw [start_alternate]
    rcases split edge.source_lt with inside | ⟨q, rfl, inside⟩ | rfl | rfl
    · rw [← Nat.zero_add q] at edge
      exact first.target_lt ha (by omega) (by simp) inside edge
    · exact second.target_lt hb (by omega) (by simp) inside edge
    · exact absurd ((edge_iff_of_edges state?_alternate_accept).1 edge) List.not_mem_nil
    · have edge := (edge_iff_of_edges state?_alternate_start).1 edge
      simp only [List.mem_cons, List.not_mem_nil, or_false] at edge
      omega
  case leads_from_start =>
    intro id lt
    rcases split lt with inside | ⟨id, rfl, inside⟩ | rfl | rfl
    · exact .head enter_first (inFirst (ta.leads_from_start inside))
    · exact .head enter_second (second.leads hb (tb.leads_from_start inside))
    · exact .head enter_first through
    · exact .refl
  case leads_to_accept =>
    intro id lt
    rcases split lt with inside | ⟨id, rfl, inside⟩ | rfl | rfl
    · exact (inFirst (ta.leads_to_accept inside)).tail leave_first
    · exact (second.leads hb (tb.leads_to_accept inside)).tail leave_second
    · exact .refl
    · exact .head enter_first through

theorem IsTrim.star (ha : a.IsOperand) (ta : a.IsTrim) : a.star.IsTrim := by
  have inner := holds_star ha
  have inInner {q r : Nat} (path : a.Leads q r) : a.star.Leads q r := by
    simpa using inner.leads ha path
  have enter : a.star.Edge (a.size + 1) a.start := edge_of_edges state?_star_start (by simp)
  have skip : a.star.Edge (a.size + 1) a.size := edge_of_edges state?_star_start (by simp)
  have leave : a.star.Edge a.accept a.size := by
    simpa using inner.edge_exit (t := a.size) (by simp)
  have split {id : Nat} (lt : id < a.star.size) :
      id < a.size ∨ id = a.size ∨ id = a.size + 1 := by
    rw [size_star] at lt
    omega
  constructor
  case leadsOn =>
    intro id s known ne
    rcases split (lt_size_of_state? known) with inside | rfl | rfl
    · rw [← Nat.zero_add id] at known
      exact inner.leadsOn ta inside known fun _ => ⟨List.cons_ne_nil _ _, Nat.le_refl 2⟩
    · exact absurd rfl ne
    · rw [state?_star_start, Option.some.injEq] at known
      subst known
      exact ⟨List.cons_ne_nil _ _, Nat.le_refl 2⟩
  case ne_start =>
    intro q r edge
    have start_lt := ha.start_lt
    apply Nat.ne_of_lt
    rw [start_star]
    rcases split edge.source_lt with inside | rfl | rfl
    · rw [← Nat.zero_add q] at edge
      exact inner.target_lt ha (by omega) (by simp; omega) inside edge
    · exact absurd ((edge_iff_of_edges state?_star_accept).1 edge) List.not_mem_nil
    · have edge := (edge_iff_of_edges state?_star_start).1 edge
      simp only [List.mem_cons, List.not_mem_nil, or_false] at edge
      omega
  case leads_from_start =>
    intro id lt
    rcases split lt with inside | rfl | rfl
    · exact .head enter (inInner (ta.leads_from_start inside))
    · exact .single skip
    · exact .refl
  case leads_to_accept =>
    intro id lt
    rcases split lt with inside | rfl | rfl
    · exact (inInner (ta.leads_to_accept inside)).tail leave
    · exact .refl
    · exact .single skip

end Automaton

theorem Expr.isTrim_automaton (e : Expr) : e.automaton.IsTrim := by
  induction e with
  | literal c => exact Automaton.isTrim_literal c
  | concat a b iha ihb => exact iha.concat a.isOperand_automaton b.isOperand_automaton ihb
  | alternate a b iha ihb => exact iha.alternate a.isOperand_automaton b.isOperand_automaton ihb
  | star a iha => exact iha.star a.isOperand_automaton

/-- The shape of an automaton with one way in and one way out. -/
structure Automaton.IsThompson (m : Automaton) : Prop where
  start_known : (m.state? m.start).isSome
  accept_known : (m.state? m.accept).isSome
  target_known : ∀ q r, m.Edge q r → (m.state? r).isSome
  labeled_edges : ∀ id s, m.state? id = some s → s.isSilent = false → s.edges.length = 1
  silent_edges : ∀ id s, m.state? id = some s → s.isSilent = true → s.edges.length ≤ 2
  accept_silent : ∀ s, m.state? m.accept = some s → s.isSilent = true
  no_edge_iff : ∀ id s, m.state? id = some s → (s.edges = [] ↔ id = m.accept)
  start_no_target : ∀ q, ¬ m.Edge q m.start
  leads_from_start : ∀ id, (m.state? id).isSome → m.Leads m.start id
  leads_to_accept : ∀ id, (m.state? id).isSome → m.Leads id m.accept

theorem Automaton.IsTrim.isThompson {m : Automaton} (trim : m.IsTrim) (operand : m.IsOperand) :
    m.IsThompson where
  start_known := state?_isSome_iff.2 operand.start_lt
  accept_known := state?_isSome_iff.2 operand.accept_lt
  target_known _ _ edge := state?_isSome_iff.2 (operand.target_lt edge)
  labeled_edges id s known labeled := by
    refine (trim.leadsOn known ?_).length_eq_one labeled
    rintro rfl
    rw [operand.state?_accept, Option.some.injEq] at known
    subst known
    cases labeled
  silent_edges id s known _ := by
    by_cases last : id = m.accept
    · rw [last, operand.state?_accept, Option.some.injEq] at known
      subst known
      exact Nat.zero_le 2
    · exact (trim.leadsOn known last).length_le_two
  accept_silent s known := by
    rw [operand.state?_accept, Option.some.injEq] at known
    subst known
    rfl
  no_edge_iff id s known := by
    constructor
    · intro none
      exact Classical.not_not.1 fun ne => (trim.leadsOn known ne).1 none
    · rintro rfl
      rw [operand.state?_accept, Option.some.injEq] at known
      subst known
      rfl
  start_no_target q edge := trim.ne_start edge rfl
  leads_from_start id known := trim.leads_from_start (state?_isSome_iff.1 known)
  leads_to_accept id known := trim.leads_to_accept (state?_isSome_iff.1 known)

namespace Postorder

/-- Every automaton that is assembled, with or without a limit, has one way in and one way out: its
ends and all targets of edges exist, a labeled state has one edge and a silent one at most two, only
the accept state, which is silent, has none, no edge leads to the start, and every state lies on the
way from the start to the accept state. -/
theorem assemble_isThompson {p : Postorder} {limit : Option Nat} {m : Automaton}
    (h : (p.assemble limit).result = .ok m) : m.IsThompson := by
  obtain ⟨e, _, rfl⟩ := result_assemble_eq_ok_iff.1 (result_assemble_none_of_ok h)
  exact e.isTrim_automaton.isThompson e.isOperand_automaton

/-- A starred alternation before a literal, under a limit that just suffices. -/
theorem assemble_isThompson_starred :
    ((ofText "ab|*c.").assemble (some 10)).result =
        .ok (((Automaton.literal 'a').alternate (.literal 'b')).star.concat (.literal 'c')) ∧
      (((Automaton.literal 'a').alternate (.literal 'b')).star.concat (.literal 'c')).IsThompson := by
  let e : Expr := .concat (.star (.alternate (.literal 'a') (.literal 'b'))) (.literal 'c')
  have written : ofText "ab|*c." = e.postorder := rfl
  have keeps : ∀ bound, some 10 = some bound → e.automaton.size ≤ bound := by
    rintro _ ⟨rfl⟩
    exact Nat.le_of_eq e.size_automaton
  have assembled : ((ofText "ab|*c.").assemble (some 10)).result = .ok e.automaton := by
    rw [written]
    exact result_assemble_eq_ok_iff_keeps.2 ⟨result_assemble_postorder e, keeps⟩
  exact ⟨assembled, assemble_isThompson assembled⟩

end Postorder

end WholeMatch
