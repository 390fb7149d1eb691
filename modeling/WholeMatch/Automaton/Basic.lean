import WholeMatch.Error

/-!
# Automata

An automaton keeps its states in an array and names them by their index. A labeled state consumes
its label on the way along its edge, of which there is at most one; a silent state has up to two
edges, which are followed without consuming anything. Edges may name states that do not exist
(yet); they lead nowhere.

Growing is the only change: states are added at the end and edges are appended. Each operation
has its equation for the view `state?`.
-/

namespace WholeMatch

/-- A state of an automaton. -/
structure State where
  /-- The character consumed on leaving the state; a silent state has none. -/
  label : Option Char := none
  /-- The states an edge leads to, in the order the edges were added. -/
  edges : List Nat := []
  deriving DecidableEq

namespace State

/-- A state that is left without consuming anything, without edges. -/
def silent : State := {}

/-- A state that consumes `c`, without its edge. -/
def labeled (c : Char) : State := { label := some c }

/-- Tells whether the state consumes nothing. -/
def isSilent (s : State) : Bool := s.label.isNone

/-- How many edges a state of this kind may have. -/
def capacity (s : State) : Nat := if s.isSilent then 2 else 1

/-- Appends an edge. -/
def link (s : State) (target : Nat) : State := { s with edges := s.edges ++ [target] }

/-- The edges that are followed without consuming anything. -/
def silentEdges (s : State) : List Nat := if s.isSilent then s.edges else []

/-- Where consuming `c` leads: along the first edge, if `c` is the label. -/
def target? (s : State) (c : Char) : Option Nat :=
  if s.label = some c then s.edges.head? else none

theorem mem_silentEdges_iff {s : State} {t : Nat} :
    t ∈ s.silentEdges ↔ s.label = none ∧ t ∈ s.edges := by
  rw [silentEdges, isSilent, List.mem_ite_nil_right, Option.isNone_iff_eq_none]

theorem target?_eq_some_iff {s : State} {c : Char} {t : Nat} :
    s.target? c = some t ↔ s.label = some c ∧ s.edges.head? = some t := by
  rw [target?, Option.ite_none_right_eq_some]

end State

/-- The two ends of a piece of an automaton. -/
structure Fragment where
  start : Nat
  accept : Nat
  deriving DecidableEq

/-- States with their edges, and where a run starts and is accepted. -/
structure Automaton where
  states : Array State := #[]
  start : Nat := 0
  accept : Nat := 0
  deriving DecidableEq

namespace Automaton

/-- No states. -/
def empty : Automaton := {}

/-- The number of states. -/
def size (m : Automaton) : Nat := m.states.size

/-- The state with this name. -/
def state? (m : Automaton) (id : Nat) : Option State := m.states[id]?

/-- Adds a state, which is named by the size so far. -/
def addState (m : Automaton) (s : State) : Automaton := { m with states := m.states.push s }

/-- Adds a silent state without edges. -/
def addSilent (m : Automaton) : Automaton := m.addState State.silent

/-- Adds a state that consumes `c` and leads to `target`, which need not exist. -/
def addLabeled (m : Automaton) (c : Char) (target : Nat) : Automaton :=
  m.addState ((State.labeled c).link target)

/-- Appends an edge to `source`, if there is such a state. -/
def link (m : Automaton) (source target : Nat) : Automaton :=
  { m with states := m.states.modify source (·.link target) }

/-- Adds an edge. A `source` that does not exist is passed over; one that has all the edges its
kind may have is an error. -/
def connect (m : Automaton) (source target : Nat) : Except Error Automaton :=
  match m.state? source with
  | none => .ok m
  | some s =>
    if s.edges.length < s.capacity then .ok (m.link source target)
    else .error (.stateFull source s.edges.length)

/-- Adds edges one after the other. -/
def connectAll (m : Automaton) : List (Nat × Nat) → Except Error Automaton
  | [] => .ok m
  | (source, target) :: rest => m.connect source target >>= (·.connectAll rest)

/-- Chooses where runs start and are accepted. -/
def setFragment (m : Automaton) (f : Fragment) : Automaton :=
  { m with start := f.start, accept := f.accept }

/-! ### The view of each operation -/

theorem ext_state? {m m' : Automaton} (states : ∀ id, m.state? id = m'.state? id)
    (start : m.start = m'.start) (accept : m.accept = m'.accept) : m = m' := by
  cases m; cases m'
  simp only [mk.injEq]
  exact ⟨Array.ext_getElem? states, start, accept⟩

theorem state?_isSome_iff {m : Automaton} {id : Nat} :
    (m.state? id).isSome ↔ id < m.size := by
  simp [state?, size]

theorem lt_size_of_state? {m : Automaton} {id : Nat} {s : State}
    (h : m.state? id = some s) : id < m.size :=
  state?_isSome_iff.1 (by simp [h])

@[simp] theorem size_empty : empty.size = 0 := rfl

@[simp] theorem state?_empty (id : Nat) : empty.state? id = none := rfl

@[simp] theorem size_addState (m : Automaton) (s : State) :
    (m.addState s).size = m.size + 1 := by
  simp [size, addState]

theorem state?_addState (m : Automaton) (s : State) (id : Nat) :
    (m.addState s).state? id = if id = m.size then some s else m.state? id :=
  Array.getElem?_push

@[simp] theorem start_addState (m : Automaton) (s : State) :
    (m.addState s).start = m.start := rfl

@[simp] theorem accept_addState (m : Automaton) (s : State) :
    (m.addState s).accept = m.accept := rfl

@[simp] theorem start_setFragment (m : Automaton) (f : Fragment) :
    (m.setFragment f).start = f.start := rfl

@[simp] theorem accept_setFragment (m : Automaton) (f : Fragment) :
    (m.setFragment f).accept = f.accept := rfl

@[simp] theorem size_setFragment (m : Automaton) (f : Fragment) :
    (m.setFragment f).size = m.size := rfl

@[simp] theorem state?_setFragment (m : Automaton) (f : Fragment) (id : Nat) :
    (m.setFragment f).state? id = m.state? id := rfl

@[simp] theorem start_link (m : Automaton) (source target : Nat) :
    (m.link source target).start = m.start := rfl

@[simp] theorem accept_link (m : Automaton) (source target : Nat) :
    (m.link source target).accept = m.accept := rfl

@[simp] theorem size_link (m : Automaton) (source target : Nat) :
    (m.link source target).size = m.size := by
  simp [size, link]

theorem state?_link (m : Automaton) (source target id : Nat) :
    (m.link source target).state? id =
      if id = source then (m.state? id).map (·.link target) else m.state? id := by
  simp only [state?, link, Array.getElem?_modify, eq_comm]

theorem link_of_unknown {m : Automaton} {source : Nat} (h : m.state? source = none)
    (target : Nat) : m.link source target = m := by
  refine ext_state? (fun id => ?_) rfl rfl
  rw [state?_link]
  by_cases e : id = source <;> simp_all

/-- An edge that can be added is appended to its source, and nothing else changes. -/
theorem connect_eq_ok_iff {m m' : Automaton} {source target : Nat} :
    m.connect source target = .ok m' ↔
      (∀ s, m.state? source = some s → s.edges.length < s.capacity) ∧
        m' = m.link source target := by
  unfold connect
  split
  next h => simp [h, link_of_unknown, eq_comm]
  next s h =>
    split
    next hlt => simp [h, hlt, eq_comm]
    next hge => simpa [h] using fun hlt => absurd hlt hge

theorem connect_of_room {m : Automaton} {source : Nat} {s : State}
    (known : m.state? source = some s) (room : s.edges.length < s.capacity) (target : Nat) :
    m.connect source target = .ok (m.link source target) := by
  simp only [connect, known, room, if_true]

theorem connect_of_unknown {m : Automaton} {source : Nat} (unknown : m.state? source = none)
    (target : Nat) : m.connect source target = .ok m := by
  simp only [connect, unknown]

/-- Adding an edge fails only at a state that has all the edges its kind may have. -/
theorem connect_eq_error_iff {m : Automaton} {source target : Nat} {e : Error} :
    m.connect source target = .error e ↔
      ∃ s, m.state? source = some s ∧ s.capacity ≤ s.edges.length ∧
        e = .stateFull source s.edges.length := by
  unfold connect
  split
  next h => simp [h]
  next s h =>
    split
    next hlt => simp [h, Nat.not_le.2 hlt]
    next hge => simp [h, Nat.not_lt.1 hge, eq_comm]

/-- A state that consumes `c` takes its edge when it has just been added. -/
theorem connect_addState_labeled (m : Automaton) (c : Char) (target : Nat) :
    (m.addState (State.labeled c)).connect m.size target = .ok (m.addLabeled c target) := by
  refine connect_eq_ok_iff.2 ⟨fun s h => ?_, ext_state? (fun id => ?_) rfl rfl⟩
  · rw [state?_addState, if_pos rfl] at h
    cases h
    simp [State.labeled, State.capacity, State.isSilent]
  · simp only [addLabeled, state?_link, state?_addState]
    split <;> simp_all

end Automaton

end WholeMatch
