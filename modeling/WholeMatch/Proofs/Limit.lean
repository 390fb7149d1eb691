import WholeMatch.Proofs.Placing

/-!
# A limit only stops assemblies

The limit on the states is checked each time a token has been placed, and has no part in how it is
placed (`Assembly.result_place_eq_ok_iff`). So what comes out under some limit comes out without one
as well (`Postorder.result_assemble_none_of_ok`), and keeps the limit
(`Postorder.size_le_of_result_assemble`).
-/

namespace WholeMatch

/-! ### Steps that may fail -/

section Steps

variable {ε α β : Type} {x : Except ε α} {f : α → Except ε β}

theorem bind_eq_ok_iff {b : β} : x >>= f = .ok b ↔ ∃ a, x = .ok a ∧ f a = .ok b := by
  cases x with
  | error e => simp [bind, Except.bind]
  | ok a => simp [bind, Except.bind]

theorem bind_eq_error_iff {e : ε} :
    x >>= f = .error e ↔ x = .error e ∨ ∃ a, x = .ok a ∧ f a = .error e := by
  cases x with
  | error e => simp [bind, Except.bind]
  | ok a => simp [bind, Except.bind]

end Steps

namespace Assembly

variable {a b : Assembly} {limit : Option Nat} {position : Nat} {token : Token}

/-! ### The check -/

theorem within_of_le (keeps : ∀ bound, limit = some bound → a.automaton.size ≤ bound) :
    a.within limit = .ok a := by
  cases limit with
  | none => rfl
  | some bound =>
    rw [within, checkSize, if_neg (Nat.not_lt.2 (keeps bound rfl))]
    rfl

theorem within_of_lt {bound : Nat} (exceeds : bound < a.automaton.size) :
    a.within (some bound) = .error (.tooComplex bound) := by
  rw [within, checkSize, if_pos exceeds]
  rfl

theorem eq_of_within (h : a.within limit = .ok b) : b = a := by
  rw [within] at h
  cases check : a.checkSize limit with
  | error e =>
    rw [check] at h
    cases h
  | ok _ =>
    rw [check] at h
    cases h
    rfl

theorem exists_of_within_eq_error {e : Error} (h : a.within limit = .error e) :
    ∃ bound, limit = some bound ∧ e = .tooComplex bound := by
  cases limit with
  | none => cases h
  | some bound =>
    by_cases exceeds : bound < a.automaton.size
    · rw [within_of_lt exceeds] at h
      cases h
      exact ⟨bound, rfl, rfl⟩
    · have keeps : ∀ other, some bound = some other → a.automaton.size ≤ other := by
        rintro _ ⟨rfl⟩
        exact Nat.not_lt.1 exceeds
      rw [within_of_le keeps] at h
      cases h

theorem size_le_of_within {bound : Nat} (h : a.within (some bound) = .ok b) :
    b.automaton.size ≤ bound := by
  cases eq_of_within h
  refine Nat.not_lt.1 fun exceeds => ?_
  rw [within_of_lt exceeds] at h
  cases h

/-! ### Placing -/

/-- A token is placed by wiring it into the automaton; after that the limit is checked. -/
theorem result_place_eq_ok_iff :
    (a.place limit position token).result = .ok b ↔
      ∃ w rest m, a.wiring position token = .ok (w, rest) ∧ a.automaton.wire w = .ok m ∧
        within ⟨m, w.fragment :: rest⟩ limit = .ok b := by
  constructor
  · intro h
    rw [result_place, bind_eq_ok_iff] at h
    obtain ⟨⟨w, rest⟩, found, h⟩ := h
    obtain ⟨m, wired, h⟩ := bind_eq_ok_iff.1 h
    refine ⟨w, rest, m, found, wired, ?_⟩
    obtain ⟨_, checked, h⟩ := bind_eq_ok_iff.1 h
    rw [within, checked]
    exact h
  · intro placed
    obtain ⟨w, rest, m, found, wired, checked⟩ := placed
    rw [result_place_of_wiring found wired, checked]

theorem result_place_none_of_ok (h : (a.place limit position token).result = .ok b) :
    (a.place none position token).result = .ok b := by
  obtain ⟨w, rest, m, found, wired, checked⟩ := result_place_eq_ok_iff.1 h
  rw [eq_of_within checked, result_place_of_wiring found wired]
  rfl

theorem result_placeAll_none_of_ok {tokens : List Token}
    (h : (a.placeAll limit position tokens).result = .ok b) :
    (a.placeAll none position tokens).result = .ok b := by
  induction tokens generalizing a position with
  | nil => exact h
  | cons token rest ih =>
    rw [result_placeAll_cons, bind_eq_ok_iff] at h ⊢
    obtain ⟨next, step, later⟩ := h
    exact ⟨next, result_place_none_of_ok step, ih later⟩

theorem size_le_of_result_placeAll {bound : Nat} {tokens : List Token}
    (kept : a.automaton.size ≤ bound)
    (h : (a.placeAll (some bound) position tokens).result = .ok b) : b.automaton.size ≤ bound := by
  induction tokens generalizing a position with
  | nil =>
    cases h
    exact kept
  | cons token rest ih =>
    rw [result_placeAll_cons, bind_eq_ok_iff] at h
    obtain ⟨next, step, later⟩ := h
    obtain ⟨_, _, _, _, _, checked⟩ := result_place_eq_ok_iff.1 step
    exact ih (size_le_of_within checked) later

theorem size_of_finish {m : Automaton} (h : a.finish = .ok m) : m.size = a.automaton.size := by
  unfold finish at h
  split at h <;> cases h
  rfl

end Assembly

namespace Postorder

variable {p : Postorder} {limit : Option Nat} {m : Automaton}

/-- An automaton that keeps a limit is the one that is assembled without a limit. -/
theorem result_assemble_none_of_ok (h : (p.assemble limit).result = .ok m) :
    (p.assemble none).result = .ok m := by
  rw [result_assemble, bind_eq_ok_iff] at h ⊢
  obtain ⟨a, run, finished⟩ := h
  exact ⟨a, Assembly.result_placeAll_none_of_ok run, finished⟩

theorem size_le_of_result_assemble {bound : Nat} (h : (p.assemble (some bound)).result = .ok m) :
    m.size ≤ bound := by
  rw [result_assemble, bind_eq_ok_iff] at h
  obtain ⟨a, run, finished⟩ := h
  have kept : ({} : Assembly).automaton.size ≤ bound := Nat.zero_le bound
  rw [Assembly.size_of_finish finished]
  exact Assembly.size_le_of_result_placeAll kept run

end Postorder

end WholeMatch
