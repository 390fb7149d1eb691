import WholeMatch.Automaton.Simulation
import WholeMatch.Postorder
import WholeMatch.Text.Quoted

/-!
# Journals

What is worth telling on the way from a pattern to a verdict. A `Traced` computation keeps the
records in the order in which they arise and ends in a value or an error; the records before an
error are kept. Its result alone is that of the same steps in `Except` (`result_bind`).
-/

namespace WholeMatch

/-- How much detail a record gives. -/
inductive Level where
  /-- One record for each stage. -/
  | debug
  /-- One record for each step of a stage. -/
  | trace
  deriving DecidableEq

/-- The name of a level. -/
def Level.name : Level → String
  | debug => "debug"
  | trace => "trace"

/-- One event. -/
inductive Record where
  /-- An operator at a position of the pattern made the tighter one before it leave. -/
  | displaced (op : Operator) (tighter : Token) (position : Nat)
  /-- A pattern has been put into post-order. -/
  | ordered (pattern : String) (postorder : Postorder)
  /-- The token at a position of the post-order became a fragment, the last of `count`. -/
  | placed (token : Token) (position : Nat) (fragment : Fragment) (count : Nat)
  /-- A post-order has been made into an automaton with this many states. -/
  | assembled (postorder : Postorder) (states : Nat) (ends : Fragment)
  /-- A pattern has been made into an automaton with this many states. -/
  | built (pattern : String) (states : Nat)
  /-- A character of a subject has been consumed. -/
  | consumed (step : Consumed)
  deriving DecidableEq

namespace Record

/-- Whether a record tells of a stage or of a step. -/
def level : Record → Level
  | displaced .. => .trace
  | ordered .. => .debug
  | placed .. => .trace
  | assembled .. => .debug
  | built .. => .debug
  | consumed _ => .trace

/-- The wording of a record. -/
def message : Record → String
  | displaced op tighter position =>
    "`" ++ op.symbol.toString ++ "` pops `" ++ tighter.symbol.toString ++ "` at position " ++
      toString position
  | ordered pattern postorder => "translated `" ++ pattern ++ "` into `" ++ postorder.text ++ "`"
  | placed token position fragment count =>
    "`" ++ token.symbol.toString ++ "` at " ++ toString position ++
      " -> Fragment \x7b start: " ++ toString fragment.start ++
      ", accept: " ++ toString fragment.accept ++ " \x7d, " ++
      toString count ++ " fragment(s) on stack"
  | assembled postorder states ends =>
    "compiled `" ++ postorder.text ++ "` into " ++ toString states ++ " states (start: " ++
      toString ends.start ++ ", accept: " ++ toString ends.accept ++ ")"
  | built pattern states =>
    "built `" ++ pattern ++ "` with " ++ toString states ++ " states"
  | consumed step =>
    String.ofList (Text.quotedChar step.char) ++ " at " ++ toString step.position ++ ": " ++
      toString step.active ++ " active state(s)"

end Record

/-- A computation that may fail and keeps a journal. -/
structure Traced (α : Type) where
  journal : List Record
  result : Except Error α

namespace Traced

variable {α β : Type}

/-- Ends with a value or an error and tells nothing. -/
def ofExcept (result : Except Error α) : Traced α := ⟨[], result⟩

/-- Tells of one event. -/
def tell (record : Record) : Traced Unit := ⟨[record], .ok ()⟩

instance : Monad Traced where
  pure a := ⟨[], .ok a⟩
  bind x f :=
    match x with
    | ⟨journal, .ok a⟩ =>
      let y := f a
      ⟨journal ++ y.journal, y.result⟩
    | ⟨journal, .error e⟩ => ⟨journal, .error e⟩

@[simp] theorem result_pure (a : α) : (pure a : Traced α).result = .ok a := rfl

@[simp] theorem result_ofExcept (r : Except Error α) : (ofExcept r).result = r := rfl

@[simp] theorem result_tell (r : Record) : (tell r).result = .ok () := rfl

@[simp] theorem result_bind (x : Traced α) (f : α → Traced β) :
    (x >>= f).result = x.result >>= fun a => (f a).result := by
  obtain ⟨journal, result⟩ := x
  cases result <;> rfl

end Traced

end WholeMatch
