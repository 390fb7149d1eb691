import WholeMatch.Automaton.Edit
import WholeMatch.Proofs.Shape

/-!
# Automata only grow

Whatever is called on an automaton, and in whatever order, no state is lost and none loses its label
or an edge: a call adds one state at the end, or one edge behind those of its source, or nothing
(`Automaton.edit_cases`). What one call keeps, every sequence of calls keeps: the states stay
(`Automaton.growsTo_editedAll`), and none has more edges than its kind may have
(`Automaton.WithinCapacity.editedAll`). So a call is refused exactly where it would overfill a
state (`Automaton.lawfulCalls_editedAll`).
-/

namespace WholeMatch

/-- The same label and the same edges, and perhaps more of them behind. -/
structure State.GrowsTo (s s' : State) : Prop where
  label : s'.label = s.label
  edges : s.edges <+: s'.edges

theorem State.GrowsTo.refl (s : State) : s.GrowsTo s := ⟨rfl, List.prefix_refl s.edges⟩

theorem State.GrowsTo.trans {s s' s'' : State} (first : s.GrowsTo s') (second : s'.GrowsTo s'') :
    s.GrowsTo s'' :=
  ⟨second.label.trans first.label, first.edges.trans second.edges⟩

theorem State.growsTo_link (s : State) (target : Nat) : s.GrowsTo (s.link target) :=
  ⟨rfl, List.prefix_append s.edges [target]⟩

theorem State.capacity_link (s : State) (target : Nat) :
    (s.link target).capacity = s.capacity := rfl

/-- The state that an edit adds, if it adds one. -/
def Edit.newState? : Edit → Option State
  | .addSilent => some ⟨none, []⟩
  | .addLabeled c target => some ⟨some c, [target]⟩
  | .addState s => some s
  | .connect _ _ => none
  | .setFragment _ => none

theorem Edit.isAddition_iff {e : Edit} : e.isAddition = true ↔ ∃ s, e.newState? = some s := by
  cases e <;> simp [isAddition, newState?]

/-- Only a state that is added as it is might have more edges than its kind may have. -/
theorem Edit.length_le_capacity {e : Edit} {s : State} (h : e.newState? = some s)
    (fits : e = .addState s → s.edges.length ≤ s.capacity) : s.edges.length ≤ s.capacity := by
  cases e <;> cases h
  · exact Nat.zero_le _
  · exact Nat.le_refl 1
  · exact fits rfl

namespace Automaton

variable {m m' : Automaton} {e : Edit} {err : Error} {id : Nat} {s : State}

/-! ### One call -/

/-- A call that is not refused adds a state, adds an edge where there is room or chooses the
ends. -/
theorem edit_cases (h : m.edit e = .ok m') :
    (∃ s, e.newState? = some s ∧ m' = m.addState s) ∨
      (∃ source target, e = .connect source target ∧
        (∀ s, m.state? source = some s → s.edges.length < s.capacity) ∧
        m' = m.link source target) ∨
      (∃ f, e = .setFragment f ∧ m' = m.setFragment f) := by
  cases e with
  | addSilent =>
    cases h
    exact .inl ⟨_, rfl, rfl⟩
  | addLabeled c target =>
    cases h
    exact .inl ⟨_, rfl, rfl⟩
  | addState s =>
    cases h
    exact .inl ⟨_, rfl, rfl⟩
  | connect source target =>
    exact .inr (.inl ⟨source, target, rfl, connect_eq_ok_iff.1 h⟩)
  | setFragment f =>
    cases h
    exact .inr (.inr ⟨f, rfl, rfl⟩)

/-- A state that is there stays, and at most the source of a new edge changes. -/
theorem state?_of_edit (h : m.edit e = .ok m') (known : m.state? id = some s) :
    m'.state? id = some s ∨
      ∃ target, e = .connect id target ∧ m'.state? id = some (s.link target) := by
  rcases edit_cases h with ⟨new, _, rfl⟩ | ⟨source, target, rfl, _, rfl⟩ | ⟨f, _, rfl⟩
  · have old : id ≠ m.size := Nat.ne_of_lt (lt_size_of_state? known)
    rw [state?_addState, if_neg old]
    exact .inl known
  · rw [state?_link]
    by_cases same : id = source
    · subst same
      rw [if_pos rfl, known]
      exact .inr ⟨target, rfl, rfl⟩
    · rw [if_neg same]
      exact .inl known
  · exact .inl known

/-- A state that was not there is the one that has been added. -/
theorem newState?_of_edit (h : m.edit e = .ok m') (unknown : m.state? id = none)
    (known : m'.state? id = some s) : id = m.size ∧ e.newState? = some s := by
  rcases edit_cases h with ⟨new, adds, rfl⟩ | ⟨source, target, rfl, _, rfl⟩ | ⟨f, _, rfl⟩
  · rw [state?_addState] at known
    split at known
    next last =>
      cases known
      exact ⟨last, adds⟩
    next => exact absurd known (by simp [unknown])
  · rw [state?_link, unknown] at known
    split at known <;> cases known
  · exact absurd known (by simp [unknown])

/-- Only choosing the ends changes them. -/
theorem ends_of_edit (h : m.edit e = .ok m') (others : ∀ f, e ≠ .setFragment f) :
    m'.start = m.start ∧ m'.accept = m.accept := by
  rcases edit_cases h with ⟨new, _, rfl⟩ | ⟨source, target, rfl, _, rfl⟩ | ⟨f, same, rfl⟩
  · exact ⟨rfl, rfl⟩
  · exact ⟨rfl, rfl⟩
  · exact absurd same (others f)

theorem edited_of_ok (h : m.edit e = .ok m') : m.edited e = m' := by
  rw [edited, h]
  rfl

theorem edited_of_error (h : m.edit e = .error err) : m.edited e = m := by
  rw [edited, h]
  rfl

/-- What holds of an automaton and of whatever an edit makes of it holds after the edit, which may
have been refused. -/
theorem edited_induction {P : Automaton → Prop} (before : P m)
    (changed : ∀ m', m.edit e = .ok m' → P m') : P (m.edited e) := by
  cases h : m.edit e with
  | ok m' =>
    rw [edited_of_ok h]
    exact changed m' h
  | error err =>
    rw [edited_of_error h]
    exact before

/-- What every edit of a list keeps when it is made, the whole list keeps. -/
theorem editedAll_induction {P : Automaton → Prop} {edits : List Edit} (before : P m)
    (kept : ∀ e ∈ edits, ∀ m₁ m₂, P m₁ → m₁.edit e = .ok m₂ → P m₂) : P (m.editedAll edits) := by
  induction edits generalizing m with
  | nil => exact before
  | cons e edits ih =>
    have first : P (m.edited e) :=
      edited_induction before fun m' => kept e List.mem_cons_self m m' before
    exact ih first fun other member => kept other (List.mem_cons_of_mem e member)

/-! ### Growing -/

/-- Every state is still there under its name, with its label and its edges and perhaps more of
them. -/
def GrowsTo (m m' : Automaton) : Prop :=
  ∀ id s, m.state? id = some s → ∃ s', m'.state? id = some s' ∧ s.GrowsTo s'

theorem GrowsTo.refl (m : Automaton) : m.GrowsTo m := fun _ s known => ⟨s, known, .refl s⟩

theorem GrowsTo.trans {m₁ m₂ m₃ : Automaton} (first : m₁.GrowsTo m₂) (second : m₂.GrowsTo m₃) :
    m₁.GrowsTo m₃ := by
  intro id s known
  obtain ⟨s', known', grown⟩ := first id s known
  obtain ⟨s'', known'', grown'⟩ := second id s' known'
  exact ⟨s'', known'', grown.trans grown'⟩

theorem growsTo_of_edit (h : m.edit e = .ok m') : m.GrowsTo m' := by
  intro id s known
  rcases state?_of_edit h known with same | ⟨target, _, linked⟩
  · exact ⟨s, same, .refl s⟩
  · exact ⟨s.link target, linked, s.growsTo_link target⟩

theorem growsTo_editedAll (m : Automaton) (edits : List Edit) : m.GrowsTo (m.editedAll edits) :=
  editedAll_induction (P := m.GrowsTo) (.refl m) fun _ _ _ _ grown h =>
    grown.trans (growsTo_of_edit h)

/-! ### Keeping within capacity -/

/-- No state has more edges than its kind may have. -/
def WithinCapacity (m : Automaton) : Prop :=
  ∀ id s, m.state? id = some s → s.edges.length ≤ s.capacity

theorem withinCapacity_empty : empty.WithinCapacity := fun _ _ known => nomatch known

theorem withinCapacity_of_result_assemble {p : Postorder} {limit : Option Nat}
    (h : (p.assemble limit).result = .ok m) : m.WithinCapacity := by
  obtain ⟨written, _, rfl⟩ :=
    Postorder.result_assemble_eq_ok_iff.1 (Postorder.result_assemble_none_of_ok h)
  intro id s known
  by_cases last : id = written.automaton.accept
  · rw [last, written.isOperand_automaton.state?_accept, Option.some.injEq] at known
    subst known
    exact Nat.zero_le _
  · exact (written.isTrim_automaton.leadsOn known last).2

namespace WithinCapacity

theorem of_edit (within : m.WithinCapacity)
    (fits : ∀ s, e = .addState s → s.edges.length ≤ s.capacity) (h : m.edit e = .ok m') :
    m'.WithinCapacity := by
  intro id s known
  cases before : m.state? id with
  | none => exact Edit.length_le_capacity (newState?_of_edit h before known).2 (fits s)
  | some old =>
    rcases state?_of_edit h before with same | ⟨target, rfl, linked⟩
    · rw [same, Option.some.injEq] at known
      exact known ▸ within id old before
    · have room := (connect_eq_ok_iff.1 h).1 old before
      rw [linked, Option.some.injEq] at known
      subst known
      rw [State.capacity_link, State.link, List.length_append]
      exact room

theorem editedAll {edits : List Edit} (within : m.WithinCapacity)
    (fits : ∀ s, .addState s ∈ edits → s.edges.length ≤ s.capacity) :
    (m.editedAll edits).WithinCapacity := by
  refine editedAll_induction within fun e member m₁ m₂ within h => within.of_edit ?_ h
  rintro s rfl
  exact fits s member

end WithinCapacity

/-! ### What a call answers and leaves -/

theorem perform_of_ok (h : m.edit e = .ok m') :
    m.perform e = (.ok (if e.isAddition then some m.size else none), m') := by
  rw [perform_eq, h]

theorem perform_eq_error_iff : (m.perform e).1 = .error err ↔ m.edit e = .error err := by
  rw [perform_eq]
  cases m.edit e <;> simp

theorem perform_of_error (h : (m.perform e).1 = .error err) : (m.perform e).2 = m := by
  rw [← edited_eq_perform]
  exact edited_of_error (perform_eq_error_iff.1 h)

/-- A call that adds a state is never refused. -/
theorem perform_of_isAddition (adds : e.isAddition = true) :
    (m.perform e).1 = .ok (some m.size) ∧ (m.perform e).2.size = m.size + 1 := by
  obtain ⟨new, hnew⟩ := Edit.isAddition_iff.1 adds
  cases h : m.edit e with
  | ok m' =>
    rcases edit_cases h with ⟨s, _, rfl⟩ | ⟨_, _, rfl, _, _⟩ | ⟨_, rfl, _⟩
    · rw [perform_of_ok h, if_pos adds]
      exact ⟨rfl, size_addState m s⟩
    · cases hnew
    · cases hnew
  | error err =>
    obtain ⟨_, _, _, rfl, _⟩ := edit_eq_error_iff.1 h
    cases hnew

/-- What can be said of the calls on an automaton, whatever has been called on it before. -/
structure LawfulCalls (m : Automaton) : Prop where
  silent_edges : ∀ id s, m.state? id = some s → s.isSilent = true → s.edges.length ≤ 2
  labeled_edges : ∀ id s, m.state? id = some s → s.isSilent = false → s.edges.length ≤ 1
  /-- A call leaves what the run of the calls goes on with. -/
  edited_eq : ∀ e, m.edited e = (m.perform e).2
  connect_refused_iff : ∀ source target err,
    (m.perform (.connect source target)).1 = .error err ↔
      ∃ s, m.state? source = some s ∧ s.edges.length = s.capacity ∧
        err = .stateFull source s.edges.length
  connect_appends : ∀ source target s, m.state? source = some s → s.edges.length < s.capacity →
    (m.perform (.connect source target)).1 = .ok none ∧
      (m.perform (.connect source target)).2.state? source = some (s.link target)
  connect_unknown : ∀ source target, m.state? source = none →
    m.perform (.connect source target) = (.ok none, m)
  /-- Only an edge can be refused, and then it has not been added. -/
  refused : ∀ e err, (m.perform e).1 = .error err →
    (∃ source target, e = .connect source target) ∧ (m.perform e).2 = m
  /-- A new labeled state has its edge, to whatever target. -/
  labeled_added : ∀ c target,
    m.perform (.addLabeled c target) = (.ok (some m.size), m.addState ⟨some c, [target]⟩)
  addition : ∀ e, e.isAddition = true →
    (m.perform e).1 = .ok (some m.size) ∧ (m.perform e).2.size = m.size + 1
  old_states : ∀ e id s, m.state? id = some s →
    (m.perform e).2.state? id = some s ∨
      ∃ target, e = .connect id target ∧ (m.perform e).2.state? id = some (s.link target)
  new_states : ∀ e id s, m.state? id = none → (m.perform e).2.state? id = some s →
    id = m.size ∧ e.newState? = some s
  ends : ∀ e, (∀ f, e ≠ .setFragment f) →
    (m.perform e).2.start = m.start ∧ (m.perform e).2.accept = m.accept
  later : ∀ more, m.GrowsTo (m.editedAll more)

theorem WithinCapacity.lawfulCalls (within : m.WithinCapacity) : m.LawfulCalls where
  silent_edges id s known silent := by
    simpa [State.capacity, silent] using within id s known
  labeled_edges id s known labeled := by
    simpa [State.capacity, labeled] using within id s known
  edited_eq := m.edited_eq_perform
  connect_refused_iff source target err := by
    rw [perform_eq_error_iff, edit, connect_eq_error_iff]
    constructor
    · rintro ⟨s, known, full, rfl⟩
      exact ⟨s, known, Nat.le_antisymm (within source s known) full, rfl⟩
    · rintro ⟨s, known, full, rfl⟩
      exact ⟨s, known, Nat.le_of_eq full.symm, rfl⟩
  connect_appends source target s known room := by
    have linked : m.edit (.connect source target) = .ok (m.link source target) :=
      connect_of_room known room target
    rw [perform_of_ok linked, state?_link, if_pos rfl, known]
    exact ⟨rfl, rfl⟩
  connect_unknown source target unknown := perform_of_ok (connect_of_unknown unknown target)
  refused e err h := by
    obtain ⟨source, target, _, same, _⟩ := edit_eq_error_iff.1 (perform_eq_error_iff.1 h)
    exact ⟨⟨source, target, same⟩, perform_of_error h⟩
  labeled_added c target := perform_of_ok rfl
  addition _ adds := perform_of_isAddition adds
  old_states e id s known := by
    rw [← edited_eq_perform]
    exact edited_induction (.inl known) fun _ h => state?_of_edit h known
  new_states e id s unknown := by
    rw [← edited_eq_perform]
    refine edited_induction (fun known => ?_) fun _ h => newState?_of_edit h unknown
    exact absurd known (by simp [unknown])
  ends e others := by
    rw [← edited_eq_perform]
    exact edited_induction ⟨rfl, rfl⟩ fun _ h => ends_of_edit h others
  later := m.growsTo_editedAll

/-- However an automaton is changed, from nothing or from one assembled out of any tokens, the calls
on it keep to their laws, as long as the states that are added as they are, with or without edges,
have no more of them than their kind may have: no state ever does, an edge is refused exactly at a
state that has them all, a refused call changes nothing, and no call takes anything away. -/
theorem lawfulCalls_editedAll {m₀ : Automaton}
    (initial : m₀ = .empty ∨
      ∃ (p : Postorder) (limit : Option Nat), (p.assemble limit).result = .ok m₀)
    (edits : List Edit) (fits : ∀ s, .addState s ∈ edits → s.edges.length ≤ s.capacity) :
    (m₀.editedAll edits).LawfulCalls := by
  have within : m₀.WithinCapacity := by
    rcases initial with rfl | ⟨p, limit, assembled⟩
    · exact withinCapacity_empty
    · exact withinCapacity_of_result_assemble assembled
  exact (within.editedAll fits).lawfulCalls

/-- One edge is refused and one is passed over on the way, a state comes with an edge of its own,
and in the end no edge fits behind the two of the accept state. -/
theorem lawfulCalls_editedAll_literal :
    let edits := [.connect 1 0, .addLabeled 'b' 7, .connect 9 1, .addState ⟨none, [1]⟩,
      .connect 0 2, .connect 0 0]
    ((Postorder.ofText "a").assemble none).result = .ok (literal 'a') ∧
      (∀ s, .addState s ∈ edits → s.edges.length ≤ s.capacity) ∧
      let m := (literal 'a').editedAll edits
      m.LawfulCalls ∧ m.perform (.connect 0 5) = (.error (.stateFull 0 2), m) := by
  intro edits
  have assembled : ((Postorder.ofText "a").assemble none).result = .ok (literal 'a') := rfl
  have fits : ∀ s, .addState s ∈ edits → s.edges.length ≤ s.capacity := by
    simp [edits, State.capacity, State.isSilent]
  have lawful := lawfulCalls_editedAll (.inr ⟨_, none, assembled⟩) edits fits
  have full := (lawful.connect_refused_iff 0 5 (.stateFull 0 2)).2 ⟨⟨none, [2, 0]⟩, rfl, rfl, rfl⟩
  exact ⟨assembled, fits, lawful, Prod.ext full (lawful.refused _ _ full).2⟩

end Automaton

end WholeMatch
