import WholeMatch.Proofs.Growth
import WholeMatch.Proofs.Simulation

/-!
# What is accepted stays accepted

A path through an automaton is a path through whatever it grows to: the states it visits are still
there, and so are the edges it follows, since a labeled state is left along its first edge and new
edges come behind the old ones (`Automaton.Path.of_growsTo`). So no state stops being active, and no
subject stops being accepted.

New states make a difference only to names that named none before. Where all names that occur are
names of states, no path leaves these states (`Automaton.Path.of_additions`), and with more of them
the active states are the same after every word (`Automaton.accepts_editedAll`).
-/

namespace WholeMatch

/-- The first edge stays the first. -/
theorem State.GrowsTo.head?_edges {s s' : State} {t : Nat} (grown : s.GrowsTo s')
    (first : s.edges.head? = some t) : s'.edges.head? = some t := by
  obtain ⟨later, edges⟩ := grown.edges
  rw [← edges, List.head?_append, first, Option.some_or]

theorem Edit.ne_setFragment {e : Edit} (adds : e.isAddition = true) (f : Fragment) :
    e ≠ .setFragment f := by
  rintro rfl
  cases adds

namespace Automaton

variable {m m' : Automaton} {q t : Nat} {u w : List Char} {id : Nat} {s : State}

/-! ### Growing -/

theorem Path.of_growsTo (grown : m.GrowsTo m') (path : m.Path q w t) : m'.Path q w t := by
  induction path with
  | refl known =>
    obtain ⟨s, known⟩ := Option.isSome_iff_exists.1 known
    obtain ⟨s', known', _⟩ := grown _ s known
    exact .refl (Option.isSome_of_eq_some known')
  | silent edge _ ih =>
    obtain ⟨s, known, label, edge⟩ := edge
    obtain ⟨s', known', more⟩ := grown _ s known
    exact .silent ⟨s', known', more.label.trans label, more.edges.subset edge⟩ ih
  | consume edge _ ih =>
    obtain ⟨s, known, label, first⟩ := edge
    obtain ⟨s', known', more⟩ := grown _ s known
    exact .consume ⟨s', known', more.label.trans label, more.head?_edges first⟩ ih

theorem mem_activeAfter_of_growsTo (grown : m.GrowsTo m') (same : m'.start = m.start)
    (active : q ∈ m.activeAfter u) : q ∈ m'.activeAfter u := by
  rw [mem_activeAfter_iff] at active ⊢
  rw [same]
  exact active.of_growsTo grown

/-! ### Calls that leave the ends alone -/

theorem ends_editedAll {edits : List Edit} (others : ∀ e ∈ edits, ∀ f, e ≠ .setFragment f) :
    (m.editedAll edits).start = m.start ∧ (m.editedAll edits).accept = m.accept := by
  apply editedAll_induction (P := fun m' => m'.start = m.start ∧ m'.accept = m.accept) ⟨rfl, rfl⟩
  rintro e member m₁ m₂ ⟨start, accept⟩ h
  have same := ends_of_edit h (others e member)
  exact ⟨same.1.trans start, same.2.trans accept⟩

/-- Adding states changes none that is there. -/
theorem state?_of_additions {edits : List Edit} (additions : ∀ e ∈ edits, e.isAddition = true)
    (known : m.state? id = some s) : (m.editedAll edits).state? id = some s := by
  apply editedAll_induction (P := fun m' => m'.state? id = some s) known
  intro e member m₁ m₂ known h
  rcases state?_of_edit h known with same | ⟨target, rfl, _⟩
  · exact same
  · exact absurd (additions _ member) Bool.false_ne_true

/-! ### Names without a state -/

/-- All names that occur are names of states. -/
structure IsClosed (m : Automaton) : Prop where
  start_known : (m.state? m.start).isSome
  accept_known : (m.state? m.accept).isSome
  target_known : ∀ q r, m.Edge q r → (m.state? r).isSome

theorem IsThompson.isClosed (h : m.IsThompson) : m.IsClosed :=
  ⟨h.start_known, h.accept_known, h.target_known⟩

/-- From a state that was there before, the new states of an automaton are out of reach. -/
theorem Path.of_additions (closed : m.IsClosed)
    (kept : ∀ id s, m.state? id = some s → m'.state? id = some s)
    (known : (m.state? q).isSome) (path : m'.Path q w t) : m.Path q w t := by
  have before : ∀ {id s'}, (m.state? id).isSome → m'.state? id = some s' →
      m.state? id = some s' := by
    intro id s' known found
    obtain ⟨s, known⟩ := Option.isSome_iff_exists.1 known
    rw [kept id s known] at found
    exact known.trans found
  induction path with
  | refl _ => exact .refl known
  | silent edge _ ih =>
    obtain ⟨s, found, label, edge⟩ := edge
    have old := before known found
    exact .silent ⟨s, old, label, edge⟩ (ih (closed.target_known _ _ ⟨s, old, edge⟩))
  | consume edge _ ih =>
    obtain ⟨s, found, label, first⟩ := edge
    have old := before known found
    have target := closed.target_known _ _ ⟨s, old, List.mem_of_head? first⟩
    exact .consume ⟨s, old, label, first⟩ (ih target)

theorem activeAfter_of_additions {edits : List Edit} (closed : m.IsClosed)
    (additions : ∀ e ∈ edits, e.isAddition = true) (u : List Char) :
    (m.editedAll edits).activeAfter u = m.activeAfter u := by
  have same := ends_editedAll (m := m) fun e member => Edit.ne_setFragment (additions e member)
  apply Std.ExtTreeSet.ext_mem
  intro q
  rw [mem_activeAfter_iff, mem_activeAfter_iff, same.1]
  constructor
  · intro path
    exact path.of_additions closed (fun _ _ => state?_of_additions additions) closed.start_known
  · intro path
    exact path.of_growsTo (m.growsTo_editedAll edits)

/-- However an automaton is added to, be it by any states or by edges, no state that is active after
a word stops being so, and what was accepted still is. If all names that occur in it are names of
states, adding states alone changes neither the active states nor any verdict. -/
theorem accepts_editedAll (m : Automaton) (edits : List Edit)
    (others : ∀ e ∈ edits, ∀ f, e ≠ .setFragment f) :
    (∀ u q, q ∈ m.activeAfter u → q ∈ (m.editedAll edits).activeAfter u) ∧
    (∀ subject, m.accepts subject = true → (m.editedAll edits).accepts subject = true) ∧
    (m.IsClosed → (∀ e ∈ edits, e.isAddition = true) →
      (∀ u, (m.editedAll edits).activeAfter u = m.activeAfter u) ∧
      ∀ subject, (m.editedAll edits).accepts subject = m.accepts subject) := by
  have grown := m.growsTo_editedAll edits
  obtain ⟨start, accept⟩ := ends_editedAll (m := m) others
  refine ⟨fun u q => mem_activeAfter_of_growsTo grown start, ?_, ?_⟩
  · intro subject accepted
    rw [accepts_iff_spells, Spells] at accepted ⊢
    rw [start, accept]
    exact accepted.of_growsTo grown
  · intro closed additions
    have same := activeAfter_of_additions closed additions
    refine ⟨same, fun subject => ?_⟩
    rw [accepts_eq_contains, accepts_eq_contains, same, accept]

/-- An edge to a state that is not there yet comes to life with it, and a subject is accepted that
was not; adding to an automaton without such edges changes nothing, even if the new states have
edges to those that were there. -/
theorem accepts_editedAll_dangling :
    let m := (literal 'a').editedAll [.connect 0 2]
    let edits := [.addState ⟨none, [3, 9]⟩, .addLabeled 'b' 0, .connect 3 1]
    let additions := [.addLabeled 'b' 0, .addState ⟨none, [1, 0]⟩]
    (∀ e ∈ edits, ∀ f, e ≠ .setFragment f) ∧
    m.accepts "a" = true ∧ (m.editedAll edits).accepts "a" = true ∧
    m.accepts "ab" = false ∧ (m.editedAll edits).accepts "ab" = true ∧
    (literal 'a').IsClosed ∧ (∀ e ∈ additions, e.isAddition = true) ∧
    ((literal 'a').editedAll additions).accepts "ab" = (literal 'a').accepts "ab" := by
  intro m edits additions
  have others : ∀ e ∈ edits, ∀ f, e ≠ .setFragment f := by simp [edits]
  have accepted : m.accepts "a" = true := by decide +kernel
  have closed : (literal 'a').IsClosed :=
    ((Expr.literal 'a').isTrim_automaton.isThompson (Expr.literal 'a').isOperand_automaton).isClosed
  have still := (accepts_editedAll m edits others).2.1 "a" accepted
  have adding : ∀ e ∈ additions, e.isAddition = true := by simp [additions, Edit.isAddition]
  have unchanged := (accepts_editedAll (literal 'a') additions (by simp [additions])).2.2 closed
    adding
  exact ⟨others, accepted, still, by decide +kernel, by decide +kernel, closed, adding,
    unchanged.2 "ab"⟩

end Automaton

end WholeMatch
