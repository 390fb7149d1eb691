import WholeMatch.Proofs.Shape

/-!
# Every fragment has states of its own

While tokens are placed, all fragments stand in one automaton, and a token may add edges to states
in the midst of it. Still the states are divided among the fragments. Each of them owns the states
that were added for its tokens, which follow those of the fragment before it (`Segment.Fill`). No
edge leads from the states of one to those of another, and renumbered from zero they are the
automaton that its tokens have on their own (`Segment.StandsAlone`).

What an assembly holds is always the automata of expressions beside each other, and setting one more
of them beside the others gives it a segment of its own and leaves theirs as they are
(`Assembly.DividedInto.push`).
-/

namespace WholeMatch

/-- The same state where all names are moved down. -/
def State.unshift (offset : Nat) (s : State) : State :=
  { s with edges := s.edges.map (· - offset) }

@[simp] theorem State.unshift_shift (offset : Nat) (s : State) :
    (s.shift offset).unshift offset = s := by
  simp [shift, unshift, Function.comp_def]

/-- The part of an assembly that belongs to one fragment. -/
structure Segment where
  /-- The tokens that have become the fragment. -/
  tokens : List Token
  /-- The first of its states. -/
  first : Nat
  /-- One past the last of its states. -/
  past : Nat
  fragment : Fragment

/-- The states of a segment, renumbered from zero, between the ends of its fragment. -/
def Automaton.part (m : Automaton) (s : Segment) : Automaton where
  states := (m.states.extract s.first s.past).map (State.unshift s.first)
  start := s.fragment.start - s.first
  accept := s.fragment.accept - s.first

namespace Segment

/-- The state lies in the segment. -/
def Owns (s : Segment) (id : Nat) : Prop := s.first ≤ id ∧ id < s.past

/-- The segments, the last of which comes first, follow each other without a gap. None of them is
empty, and together they are all states below a size. -/
def Fill : List Segment → Nat → Prop
  | [], size => size = 0
  | s :: below, size => s.past = size ∧ s.first < s.past ∧ Fill below s.first

/-- The tokens of all segments, the last of which comes first. -/
def written : List Segment → List Token
  | [] => []
  | s :: below => written below ++ s.tokens

/-- A segment of an automaton is an automaton of its own: it has both ends of its fragment, which
are two states, its edges stay inside, none leaves its end, which is silent, or leads to its start,
and under any limit that its states keep, its tokens alone are assembled into just these states. -/
structure StandsAlone (s : Segment) (m : Automaton) : Prop where
  start_owned : s.Owns s.fragment.start
  accept_owned : s.Owns s.fragment.accept
  start_ne_accept : s.fragment.start ≠ s.fragment.accept
  target_owned : ∀ q r, s.Owns q → m.Edge q r → s.Owns r
  accept_silent : m.state? s.fragment.accept = some .silent
  start_no_target : ∀ q, ¬ m.Edge q s.fragment.start
  alone : ∀ limit : Option Nat, (∀ bound, limit = some bound → s.past - s.first ≤ bound) →
    ((Postorder.mk s.tokens).assemble limit).result = .ok (m.part s)

end Segment

/-- The segments, the last of which comes first, are those of the fragments, they are all there is
of the automaton, and each of them stands alone. -/
structure Assembly.DividedInto (a : Assembly) (segments : List Segment) : Prop where
  fragments_eq : segments.map Segment.fragment = a.fragments
  fill : Segment.Fill segments a.automaton.size
  standsAlone : ∀ s ∈ segments, s.StandsAlone a.automaton

/-! ### Segments of one automaton beside another -/

namespace Automaton

variable {a : Automaton} {s : Segment}

theorem state?_part (m : Automaton) (s : Segment) (id : Nat) :
    (m.part s).state? id =
      if s.first + id < s.past then (m.state? (s.first + id)).map (State.unshift s.first)
      else none := by
  simp only [state?, part, Array.getElem?_map, Array.getElem?_extract]
  split
  next inside => rw [if_pos (by omega)]
  next outside =>
    split
    next lt => rw [Array.getElem?_eq_none (by omega)]
    next => rfl

theorem part_beside (known : s.past ≤ a.size) (b : Automaton) :
    (a.beside b).part s = a.part s := by
  refine ext_state? ?_ rfl rfl
  intro id
  rw [state?_part, state?_part]
  split
  next inside => rw [state?_beside_of_lt (by omega)]
  next => rfl

end Automaton

namespace Segment

variable {s : Segment} {segments below : List Segment} {m : Automaton} {size id : Nat}

theorem Fill.past_le (fill : Fill segments size) (member : s ∈ segments) : s.past ≤ size := by
  induction segments generalizing size with
  | nil => exact absurd member List.not_mem_nil
  | cons last below ih =>
    obtain ⟨rfl, nonempty, rest⟩ := fill
    rcases List.mem_cons.1 member with rfl | earlier
    · exact Nat.le_refl _
    · have := ih rest earlier
      omega

/-- Each state has an owner. -/
theorem Fill.exists_owns (fill : Fill segments size) (lt : id < size) :
    ∃ s ∈ segments, s.Owns id := by
  induction segments generalizing size with
  | nil =>
    cases fill
    exact absurd lt (Nat.not_lt_zero id)
  | cons last below ih =>
    obtain ⟨rfl, _, rest⟩ := fill
    by_cases earlier : id < last.first
    · obtain ⟨s, member, owned⟩ := ih rest earlier
      exact ⟨s, List.mem_cons_of_mem last member, owned⟩
    · exact ⟨last, List.mem_cons_self, Nat.not_lt.1 earlier, lt⟩

/-- What stands alone does so whatever is set beside it. -/
theorem StandsAlone.beside (h : s.StandsAlone m) (known : s.past ≤ m.size) (next : Automaton) :
    s.StandsAlone (m.beside next) where
  start_owned := h.start_owned
  accept_owned := h.accept_owned
  start_ne_accept := h.start_ne_accept
  target_owned q r owned edge := by
    rcases Automaton.edge_beside_iff.1 edge with inside | ⟨q', _, rfl, _, _⟩
    · exact h.target_owned q r owned inside
    · have := owned.2
      omega
  accept_silent := by
    have lt := Nat.lt_of_lt_of_le h.accept_owned.2 known
    rw [Automaton.state?_beside_of_lt lt, h.accept_silent]
  start_no_target q edge := by
    rcases Automaton.edge_beside_iff.1 edge with inside | ⟨_, r, _, same, _⟩
    · exact h.start_no_target q inside
    · have := h.start_owned.2
      omega
  alone limit keeps := by
    rw [Automaton.part_beside known]
    exact h.alone limit keeps

/-- The segment of an expression whose automaton has been moved by an offset. -/
def ofExpr (offset : Nat) (e : Expr) : Segment where
  tokens := e.tokens
  first := offset
  past := offset + e.automaton.size
  fragment := e.automaton.ends offset

theorem part_ofExpr (m : Automaton) (e : Expr) :
    (m.beside e.automaton).part (ofExpr m.size e) = e.automaton := by
  refine Automaton.ext_state? ?_ (Nat.add_sub_cancel_left _ _) (Nat.add_sub_cancel_left _ _)
  intro id
  rw [Automaton.state?_part]
  simp only [ofExpr, Nat.add_lt_add_iff_left]
  split
  next inside => simp [Function.comp_def]
  next outside =>
    rw [eq_comm, ← Option.not_isSome_iff_eq_none, Automaton.state?_isSome_iff]
    exact outside

/-- An automaton beside one whose edges lead to states of its own stands alone there. -/
theorem standsAlone_ofExpr (closed : ∀ q r, m.Edge q r → r < m.size) (e : Expr) :
    (ofExpr m.size e).StandsAlone (m.beside e.automaton) where
  start_owned := ⟨Nat.le_add_right _ _, Nat.add_lt_add_left e.isOperand_automaton.start_lt _⟩
  accept_owned := ⟨Nat.le_add_right _ _, Nat.add_lt_add_left e.isOperand_automaton.accept_lt _⟩
  start_ne_accept same := e.start_ne_accept_automaton (Nat.add_left_cancel same)
  target_owned q r owned edge := by
    rcases Automaton.edge_beside_iff.1 edge with earlier | ⟨q', r', rfl, rfl, inside⟩
    · exact absurd earlier.source_lt (Nat.not_lt.2 owned.1)
    · have lt := e.isOperand_automaton.target_lt inside
      exact ⟨Nat.le_add_right _ _, Nat.add_lt_add_left lt _⟩
  accept_silent := by
    simp only [ofExpr, Automaton.ends]
    rw [Automaton.state?_beside_add, e.isOperand_automaton.state?_accept]
    rfl
  start_no_target q edge := by
    rcases Automaton.edge_beside_iff.1 edge with earlier | ⟨q', r', rfl, same, inside⟩
    · exact absurd (closed _ _ earlier) (Nat.not_lt.2 (Nat.le_add_right _ _))
    · exact e.isTrim_automaton.ne_start inside (Nat.add_left_cancel same).symm
  alone limit keeps := by
    rw [part_ofExpr]
    refine Postorder.result_assemble_eq_ok_iff_keeps.2 ⟨Postorder.result_assemble_postorder e, ?_⟩
    intro bound limited
    have := keeps bound limited
    simp only [ofExpr] at this
    omega

/-- The segments of expressions, the last of which comes first. -/
def ofExprs : List Expr → List Segment
  | [] => []
  | e :: below => ofExpr (Assembly.ofExprs below).automaton.size e :: ofExprs below

theorem written_ofExprs (stack : List Expr) :
    written (ofExprs stack) = Expr.writtenAll stack := by
  induction stack with
  | nil => rfl
  | cons e below ih => rw [ofExprs, written, ih, Expr.writtenAll, ofExpr]

/-- The first of the segments are those of the first expressions. -/
theorem exists_of_suffix_ofExprs {stack : List Expr}
    (h : below <:+ ofExprs stack) : ∃ stack', stack' <:+ stack ∧ below = ofExprs stack' := by
  induction stack with
  | nil => exact ⟨[], List.suffix_rfl, List.suffix_nil.1 h⟩
  | cons e rest ih =>
    rcases List.suffix_cons_iff.1 h with rfl | earlier
    · exact ⟨e :: rest, List.suffix_rfl, rfl⟩
    · obtain ⟨stack', suffix, rfl⟩ := ih earlier
      exact ⟨stack', suffix.trans (List.suffix_cons e rest), rfl⟩

end Segment

/-! ### Dividing an assembly -/

namespace Assembly

variable {a : Assembly} {segments : List Segment}

/-- No edge leads outside. -/
theorem DividedInto.edge_lt (h : a.DividedInto segments) {q r : Nat}
    (edge : a.automaton.Edge q r) : r < a.automaton.size := by
  obtain ⟨s, member, owned⟩ := h.fill.exists_owns edge.source_lt
  have inside := ((h.standsAlone s member).target_owned q r owned edge).2
  exact Nat.lt_of_lt_of_le inside (h.fill.past_le member)

/-- Fragments end at states that exist. -/
theorem DividedInto.accept_lt (h : a.DividedInto segments) :
    ∀ f ∈ a.fragments, f.accept < a.automaton.size := by
  intro f member
  rw [← h.fragments_eq] at member
  obtain ⟨s, owner, rfl⟩ := List.mem_map.1 member
  have inside := (h.standsAlone s owner).accept_owned.2
  exact Nat.lt_of_lt_of_le inside (h.fill.past_le owner)

/-- The automaton of one more expression is one more segment, and changes none before it. -/
theorem DividedInto.push (h : a.DividedInto segments) (e : Expr) :
    (a.push e.automaton).DividedInto (.ofExpr a.automaton.size e :: segments) where
  fragments_eq := by
    rw [List.map_cons, h.fragments_eq]
    rfl
  fill := by
    have nonempty := e.isOperand_automaton.start_lt
    rw [automaton_push, Automaton.size_beside]
    refine ⟨rfl, ?_, h.fill⟩
    simp only [Segment.ofExpr]
    omega
  standsAlone s member := by
    rcases List.mem_cons.1 member with rfl | earlier
    · exact Segment.standsAlone_ofExpr (fun _ _ => h.edge_lt) e
    · exact (h.standsAlone s earlier).beside (h.fill.past_le earlier) e.automaton

theorem dividedInto_ofExprs (stack : List Expr) :
    (ofExprs stack).DividedInto (Segment.ofExprs stack) := by
  induction stack with
  | nil => exact ⟨rfl, rfl, fun s member => absurd member List.not_mem_nil⟩
  | cons e below ih => exact ih.push e

end Assembly

namespace Postorder

/-- After any number of tokens, under any limit, the states are divided among the fragments: each has
a segment of them that is an automaton of its own. The tokens placed so far are those of the
segments, one after the other, and those of the first segments alone leave just the fragments and
the states of these. So a segment has the states that were added for its tokens, and its fragment is
what these tokens have become. -/
theorem assemble_in_segments {p : Postorder} {limit : Option Nat} {k : Nat} {a : Assembly}
    (placed : (Assembly.placeAll limit {} 0 (p.tokens.take k)).result = .ok a) :
    ∃ segments : List Segment,
      Segment.written segments = p.tokens.take k ∧
      a.DividedInto segments ∧
      ∀ below, below <:+ segments →
        ∃ b, (Assembly.placeAll limit {} 0 (Segment.written below)).result = .ok b ∧
          b.DividedInto below := by
  obtain ⟨stack, read, rfl⟩ :=
    (Assembly.result_placeAll_eq_ok_iff 0 (p.tokens.take k) []).1
      (Assembly.result_placeAll_none_of_ok placed)
  refine ⟨Segment.ofExprs stack, ?_, Assembly.dividedInto_ofExprs stack, ?_⟩
  · rw [Segment.written_ofExprs, ← Expr.reduceAll?_eq_some_iff.1 read]
  · intro below suffix
    obtain ⟨stack', shorter, rfl⟩ := Segment.exists_of_suffix_ofExprs suffix
    refine ⟨.ofExprs stack', ?_, Assembly.dividedInto_ofExprs stack'⟩
    rw [Segment.written_ofExprs]
    refine Assembly.result_placeAll_of_reduceAll? (Expr.reduceAll?_eq_some_iff.2 rfl) ?_
    rintro bound rfl
    have kept := Assembly.size_le_of_result_placeAll (Nat.zero_le bound) placed
    rw [Assembly.size_ofExprs] at kept
    exact Nat.le_trans (Expr.statesAll_le_of_suffix shorter) kept

/-- An alternation and a repetition, before the concatenation of the two is placed. -/
theorem assemble_in_segments_two_operands :
    ∃ a, (Assembly.placeAll (some 10) {} 0 ((ofText "ab|c*.").tokens.take 5)).result = .ok a ∧
      a.fragments = [⟨9, 8⟩, ⟨5, 4⟩] ∧
      ∃ segments : List Segment,
        Segment.written segments = (ofText "ab|c*.").tokens.take 5 ∧
        a.DividedInto segments ∧
        ∀ below, below <:+ segments →
          ∃ b, (Assembly.placeAll (some 10) {} 0 (Segment.written below)).result = .ok b ∧
            b.DividedInto below := by
  let operands : List Expr := [.star (.literal 'c'), .alternate (.literal 'a') (.literal 'b')]
  have read : Expr.reduceAll? ((ofText "ab|c*.").tokens.take 5) [] = some operands := rfl
  have placed : (Assembly.placeAll (some 10) {} 0 ((ofText "ab|c*.").tokens.take 5)).result =
      .ok (.ofExprs operands) := by
    refine Assembly.result_placeAll_of_reduceAll? read ?_
    rintro _ ⟨rfl⟩
    decide
  have ends : (Assembly.ofExprs operands).fragments = [⟨9, 8⟩, ⟨5, 4⟩] := by
    simp [operands, Assembly.ofExprs, Automaton.ends, Expr.automaton]
  exact ⟨.ofExprs operands, placed, ends, assemble_in_segments placed⟩

end Postorder

end WholeMatch
