import WholeMatch.Automaton.Dump
import WholeMatch.Proofs.Unquoting

/-!
# Dumps can be read back

A dump has one line for the ends and one for each state. The first holds two numbers and no other
digits. The name of a state is told by its line, and what follows the colon is the state: a label is
quoted and read first, and the numbers behind it are the edges (`State.ofDump?_dump`). No label ends
a line, so the lines of a dump are those that were written (`splitOn_lines`), and the whole
automaton is found in them again (`Automaton.ofDump?_dump`).
-/

namespace WholeMatch

open Text

/-! ### Edges -/

theorem not_mem_intercalate {α : Type} {x : α} {separator : List α} {parts : List (List α)}
    (apart : x ∉ separator) (absent : ∀ part ∈ parts, x ∉ part) :
    x ∉ separator.intercalate parts := by
  induction parts with
  | nil => exact List.not_mem_nil
  | cons first rest ih =>
    have later := ih fun part member => absent part (List.mem_cons_of_mem first member)
    cases rest with
    | nil => simpa using absent first
    | cons second rest =>
      have here := absent first List.mem_cons_self
      simp [List.intercalate_cons_cons, here, apart, later]

theorem newline_not_mem_bracketed (edges : List Nat) : '\n' ∉ bracketed edges := by
  have inside : '\n' ∉ [',', ' '].intercalate (edges.map decimal) := by
    apply not_mem_intercalate (by decide)
    intro part member
    obtain ⟨edge, _, rfl⟩ := List.mem_map.1 member
    exact not_mem_decimal rfl edge
  simp [bracketed, inside]

/-- The numbers between brackets are the edges. -/
theorem numbersIn_bracketed (edges : List Nat) : numbersIn (bracketed edges) = edges := by
  show numbersIn ('[' :: ([',', ' '].intercalate (edges.map decimal) ++ [']'])) = edges
  rw [numbersIn_cons rfl]
  induction edges with
  | nil => rfl
  | cons first rest ih =>
    cases rest with
    | nil =>
      simp only [List.map_cons, List.map_nil, List.intercalate_singleton]
      exact numbersIn_decimal_cons first rfl []
    | cons second rest =>
      simp only [List.map_cons, List.intercalate_cons_cons, List.append_assoc] at ih ⊢
      rw [List.cons_append, numbersIn_decimal_cons first rfl, List.cons_append,
        numbersIn_cons rfl, List.nil_append, ih]

/-! ### States -/

namespace State

theorem dump_labeled (c : Char) (edges : List Nat) :
    dump ⟨some c, edges⟩ =
      '\'' :: (escape '\'' c ++ (['\'', ' ', '-', '>', ' '] ++ bracketed edges)) := by
  simp [dump, quotedChar, quoted]

theorem dump_silent (edges : List Nat) :
    dump ⟨none, edges⟩ =
      if edges = [] then ['ε'] else ['ε', ' ', '-', '>', ' '] ++ bracketed edges := by
  cases edges <;> simp [dump]

theorem newline_not_mem_dump (s : State) : '\n' ∉ s.dump := by
  obtain ⟨label, edges⟩ := s
  have edges_line := newline_not_mem_bracketed edges
  cases label with
  | some c =>
    have visible : '\'' ≠ '\n' := by decide
    have label_line := newline_not_mem_escape visible c
    simp [dump_labeled, label_line, edges_line]
  | none =>
    rw [dump_silent]
    split <;> simp [edges_line]

/-- Reads a state from its text. The label goes first, as it may be a digit itself. -/
def ofDump? : List Char → Option State
  | '\'' :: text => (unescape? text).map fun read => ⟨some read.1, numbersIn read.2⟩
  | text => some ⟨none, numbersIn text⟩

theorem ofDump?_dump (s : State) : ofDump? s.dump = some s := by
  obtain ⟨label, edges⟩ := s
  cases label with
  | some c =>
    rw [dump_labeled, ofDump?, unescape?_escape, Option.map_some, numbersIn_append (by simp),
      numbersIn_bracketed]
  | none =>
    have digits : numbersIn (dump ⟨none, edges⟩) = edges := by
      rw [dump_silent]
      split
      next same => rw [same]; rfl
      next => rw [numbersIn_append (by simp), numbersIn_bracketed]
    have unquoted : ofDump? (dump ⟨none, edges⟩) = some ⟨none, numbersIn (dump ⟨none, edges⟩)⟩ := by
      rw [dump_silent]
      split <;> rfl
    rw [unquoted, digits]

end State

/-! ### Lines -/

/-- Lines are told apart by where they end. -/
theorem splitOn_lines {lines : List (List Char)} (whole : ∀ line ∈ lines, '\n' ∉ line) :
    (lines.map (· ++ ['\n'])).flatten.splitOn '\n' = lines ++ [[]] := by
  induction lines with
  | nil => rfl
  | cons line lines ih =>
    have later := ih fun other member => whole other (List.mem_cons_of_mem line member)
    simp only [List.map_cons, List.flatten_cons, List.append_assoc]
    rw [List.singleton_append,
      List.splitOn_append_cons_self_of_not_mem (whole line List.mem_cons_self), later,
      List.cons_append]

namespace Automaton

/-- The line for the ends, without its end. -/
def endsText (m : Automaton) : List Char :=
  "start: ".toList ++ decimal m.start ++ ", accept: ".toList ++ decimal m.accept

/-- The line of the state with this name, without its end. -/
def stateText (s : State) (id : Nat) : List Char := ' ' :: ' ' :: decimal id ++ ':' :: ' ' :: s.dump

/-- The lines of a dump. -/
def dumpLines (m : Automaton) : List (List Char) :=
  m.endsText :: m.states.toList.zipIdx.map fun (s, id) => stateText s id

theorem toList_dump (m : Automaton) : m.dump.toList = (m.dumpLines.map (· ++ ['\n'])).flatten := by
  rw [dump, String.toList_ofList, dumpLines, List.map_cons, List.flatten_cons, List.map_map]
  rfl

theorem newline_not_mem_dumpLines (m : Automaton) : ∀ line ∈ m.dumpLines, '\n' ∉ line := by
  have number := not_mem_decimal (c := '\n') rfl
  intro line member
  rw [dumpLines, List.mem_cons] at member
  rcases member with ends | state
  · rw [ends]
    unfold endsText
    simp [number]
  · obtain ⟨⟨s, id⟩, _, rfl⟩ := List.mem_map.1 state
    simp [stateText, number, s.newline_not_mem_dump]

/-- Reads a state from its line, where it follows the first colon. -/
def stateOfLine? (line : List Char) : Option State :=
  State.ofDump? ((line.dropWhile (· ≠ ':')).drop 2)

/-- Reads an automaton from its lines. -/
def ofDumpLines? : List (List Char) → Option Automaton
  | [] => none
  | ends :: states =>
    match numbersIn ends with
    | [start, accept] =>
      (states.mapM stateOfLine?).map fun states => ⟨states.toArray, start, accept⟩
    | _ => none

/-- Reads an automaton from a dump. -/
def ofDump? (text : String) : Option Automaton := ofDumpLines? (text.toList.splitOn '\n').dropLast

theorem numbersIn_endsText (m : Automaton) : numbersIn m.endsText = [m.start, m.accept] := by
  have before : ∀ c ∈ "start: ".toList, c.isDigit = false := by simp
  have between : ∀ c ∈ " accept: ".toList, c.isDigit = false := by simp
  have parted : m.endsText = "start: ".toList ++
      (decimal m.start ++ ',' :: (" accept: ".toList ++ decimal m.accept)) := by
    unfold endsText
    simp
  rw [parted, numbersIn_append before, numbersIn_decimal_cons m.start rfl,
    numbersIn_append between, numbersIn_decimal]

theorem stateOfLine?_stateText (s : State) (id : Nat) : stateOfLine? (stateText s id) = some s := by
  -- the label may be a colon too, but the first one stands right behind the name
  have name : ∀ c ∈ ' ' :: ' ' :: decimal id, decide (c ≠ ':') = true := by
    intro c member
    simp only [List.mem_cons] at member
    rcases member with rfl | rfl | digit
    · rfl
    · rfl
    · rw [decide_eq_true_eq]
      rintro rfl
      exact not_mem_decimal rfl id digit
  rw [stateOfLine?, stateText, List.dropWhile_append_of_pos name]
  exact s.ofDump?_dump

theorem mapM_stateOfLine? (states : List State) (first : Nat) :
    ((states.zipIdx first).map fun (s, id) => stateText s id).mapM stateOfLine? = some states := by
  induction states generalizing first with
  | nil => rfl
  | cons s states ih =>
    rw [List.zipIdx_cons, List.map_cons, List.mapM_cons, ih, stateOfLine?_stateText]
    rfl

theorem ofDump?_dump (m : Automaton) : ofDump? m.dump = some m := by
  rw [ofDump?, toList_dump, splitOn_lines m.newline_not_mem_dumpLines, List.dropLast_concat,
    dumpLines, ofDumpLines?, numbersIn_endsText]
  have states := mapM_stateOfLine? m.states.toList 0
  simp only [states, Option.map_some]

/-- An automaton can be read back from its dump: where runs start and are accepted, and of every
state the label and the edges in their order. So no two automata have the same dump. -/
theorem dump_eq_dump_iff (a b : Automaton) :
    ofDump? a.dump = some a ∧ (a.dump = b.dump ↔ a = b) := by
  refine ⟨a.ofDump?_dump, fun same => ?_, congrArg dump⟩
  have read := a.ofDump?_dump
  rw [same, ofDump?_dump, Option.some.injEq] at read
  exact read.symm

end Automaton

end WholeMatch
