import WholeMatch.Assembly
import WholeMatch.Infix.Reading

/-!
# Patterns

A `Pattern` is built once from its text and can then be matched against any number of subjects; it
matches a subject only as a whole. A `Draft` holds what a pattern is to be built from, and can be
built any number of times.
-/

namespace WholeMatch

/-- A pattern that has been built. -/
structure Pattern where
  text : String
  postorder : Postorder
  automaton : Automaton
  deriving DecidableEq

/-- The text of a pattern, and the limit on the states of its automaton. -/
structure Draft where
  text : String
  limit : Option Nat := none
  deriving DecidableEq

namespace Draft

/-- Replaces the limit. -/
def withLimit (d : Draft) (limit : Option Nat) : Draft := { d with limit }

/-- Builds the pattern. -/
def build (d : Draft) : Traced Pattern := do
  let postorder ← Postorder.ofPattern d.text
  let automaton ← postorder.assemble d.limit
  .tell (.built d.text automaton.size)
  return ⟨d.text, postorder, automaton⟩

/-- Building, without the journal. -/
theorem result_build (d : Draft) :
    d.build.result = (do
      let postorder ← (Postorder.ofPattern d.text).result
      let automaton ← (postorder.assemble d.limit).result
      return ⟨d.text, postorder, automaton⟩) := by
  simp only [build, Traced.result_bind, Traced.result_tell, Traced.result_pure]
  rfl

/-- What can be asked of a draft. -/
inductive Call where
  /-- Replace the limit. -/
  | withLimit (limit : Option Nat)
  /-- Build the pattern with the limit set last. -/
  | build
  deriving DecidableEq

/-- Answers a call: the draft after it, and what was built if that was asked for. -/
def call (d : Draft) : Call → Draft × Option (Except Error Pattern)
  | .withLimit limit => (d.withLimit limit, none)
  | .build => (d, some d.build.result)

/-- Answers calls one after the other. -/
def callAll (d : Draft) : List Call → List (Option (Except Error Pattern))
  | [] => []
  | c :: rest => (d.call c).2 :: (d.call c).1.callAll rest

end Draft

/-- The records of running an automaton on a subject. -/
def Automaton.journal (m : Automaton) (subject : String) : List Record :=
  (m.run subject.toList).consumed.map .consumed

namespace Pattern

/-- Builds a pattern without a limit. -/
def ofText (text : String) : Except Error Pattern := (Draft.build { text }).result

/-- Tells whether the pattern matches the whole subject. -/
def accepts (p : Pattern) (subject : String) : Bool := p.automaton.accepts subject

end Pattern

/-- Tells whether the pattern with this text matches the whole subject. -/
def accepts (text subject : String) : Except Error Bool :=
  (Pattern.ofText text).map (·.accepts subject)

end WholeMatch
