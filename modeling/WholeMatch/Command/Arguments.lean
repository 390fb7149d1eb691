/-!
# Arguments of the command

A pattern, then any number of subjects, and between them the options: two flags with a short and a
long name each and a limit on the states. Short names can be joined behind one dash, no option is
given twice, and after `--` nothing is an option any more. A dash alone and the empty argument are
never options.
-/

namespace WholeMatch.Command

/-- What is asked of the command. -/
structure Options where
  pattern : String
  subjects : List String := []
  /-- Whether to print the pattern in post-order. -/
  showPostorder : Bool := false
  /-- Whether to print the states of the automaton. -/
  showStates : Bool := false
  /-- The most states the automaton may have. -/
  limit : Option Nat := none
  deriving DecidableEq

/-- Why arguments make no sense. -/
inductive UsageError where
  | missingPattern
  | unknownOption (argument : String)
  /-- An option is given more than once. -/
  | repeatedOption (argument : String)
  /-- A flag is given a value. -/
  | unwantedValue (argument : String)
  /-- The limit is not given a value. -/
  | missingValue (argument : String)
  /-- The limit is given something that is not a number of states. -/
  | invalidNumber (value : String)
  deriving DecidableEq

/-- The wording of a usage error. -/
def UsageError.message : UsageError → String
  | missingPattern => "the pattern is missing"
  | unknownOption argument => "unknown option " ++ argument
  | repeatedOption argument => "option given twice: " ++ argument
  | unwantedValue argument => "option takes no value: " ++ argument
  | missingValue argument => "option needs a value: " ++ argument
  | invalidNumber value => "not a number of states: " ++ value

/-- The largest number of states that can be asked for. -/
def maxLimit : Nat := UInt64.size - 1

/-- The value of decimal digits, of which there is at least one. -/
def digitsValue? (digits : List Char) : Option Nat :=
  if digits ≠ [] ∧ digits.all Char.isDigit then
    some (digits.foldl (fun n d => 10 * n + (d.toNat - '0'.toNat)) 0)
  else none

/-- Reads a number of states: decimal digits, after a plus sign or not, up to the largest. -/
def number? (value : String) : Option Nat :=
  let digits := match value.toList with
    | '+' :: rest => rest
    | all => all
  (digitsValue? digits).filter (· ≤ maxLimit)

/-- What the arguments read so far say. -/
structure Given where
  showPostorder : Bool := false
  showStates : Bool := false
  limit : Option Nat := none
  /-- The arguments that are not options. -/
  operands : List String := []
  deriving DecidableEq

namespace Given

/-- Asks for the post-order. -/
def askPostorder (g : Given) (argument : String) : Except UsageError Given :=
  if g.showPostorder then .error (.repeatedOption argument)
  else .ok { g with showPostorder := true }

/-- Asks for the states. -/
def askStates (g : Given) (argument : String) : Except UsageError Given :=
  if g.showStates then .error (.repeatedOption argument)
  else .ok { g with showStates := true }

/-- Sets the limit from its value. -/
def setLimit (g : Given) (argument value : String) : Except UsageError Given :=
  match g.limit, number? value with
  | some _, _ => .error (.repeatedOption argument)
  | none, none => .error (.invalidNumber value)
  | none, some limit => .ok { g with limit := some limit }

/-- Reads short names joined behind one dash. -/
def askShort (g : Given) (argument : String) : List Char → Except UsageError Given
  | [] => .ok g
  | 'p' :: rest => do (← g.askPostorder argument).askShort argument rest
  | 'd' :: rest => do (← g.askStates argument).askShort argument rest
  | _ => .error (.unknownOption argument)

/-- Reads a long name, with the value after its equals sign if there is one. -/
def askLong (g : Given) (argument : String) (name : String) (value : Option String) :
    Except UsageError Given :=
  match name, value with
  | "postfix", none => g.askPostorder argument
  | "dump", none => g.askStates argument
  | "size-limit", some value => g.setLimit argument value
  | "postfix", some _ => .error (.unwantedValue argument)
  | "dump", some _ => .error (.unwantedValue argument)
  | "size-limit", none => .error (.missingValue argument)
  | _, _ => .error (.unknownOption argument)

/-- Splits a long option at its first equals sign. -/
def splitValue (option : List Char) : String × Option String :=
  let name := option.takeWhile (· ≠ '=')
  (String.ofList name, ((option.drop name.length).tail?).map String.ofList)

/-- Reads one argument that does not take its value from the next one. -/
def take (g : Given) (argument : String) : Except UsageError Given :=
  match argument.toList with
  | '-' :: '-' :: option =>
    let (name, value) := splitValue option
    g.askLong argument name value
  | '-' :: short :: rest => g.askShort argument (short :: rest)
  | _ => .ok { g with operands := g.operands ++ [argument] }

/-- Reads all arguments. The limit takes its value from the next argument, unless that looks like
an option. -/
def takeAll (g : Given) : List String → Except UsageError Given
  | [] => .ok g
  | "--" :: rest => .ok { g with operands := g.operands ++ rest }
  | "--size-limit" :: value :: rest =>
    if value.toList.head? = some '-' then .error (.missingValue "--size-limit")
    else do (← g.setLimit "--size-limit" value).takeAll rest
  | argument :: rest => do (← g.take argument).takeAll rest

end Given

/-- Reads the arguments: the first that is no option is the pattern. -/
def Options.ofArguments (arguments : List String) : Except UsageError Options := do
  let given ← Given.takeAll {} arguments
  match given.operands with
  | [] => .error .missingPattern
  | pattern :: subjects =>
    .ok ⟨pattern, subjects, given.showPostorder, given.showStates, given.limit⟩

end WholeMatch.Command
