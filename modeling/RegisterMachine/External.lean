import RegisterMachine.Program

/-! # External calls

A function that the machine does not look into is performed by the surroundings. A call has a result
and events, the observable part of a run. Only numbers take part in events: pointers and undefined
values never cross the boundary.

* `EventValue`, `Event`, `Outcome` — what an external call shows and yields.
* `Externals` — an implementation of external calls, with a state of its own.
* `Externals.host` — a small set of primitives; `Externals.scripted` — results fixed in advance.
-/

namespace RegisterMachine

/-- A value that may appear in an event. -/
inductive EventValue where
  /-- An integer. -/
  | int (n : Word)
  /-- A double. -/
  | float (x : Double)
  deriving DecidableEq, Repr

namespace EventValue

/-- The event form of a value, if it has one. -/
def ofValue? : Value → Option EventValue
  | .int n => some (.int n)
  | .float x => some (.float x)
  | _ => none

/-- The value that an event shows. -/
def toValue : EventValue → Value
  | .int n => .int n
  | .float x => .float x

/-- The type of a value in an event. -/
def dataType : EventValue → DataType
  | .int _ => .int
  | .float _ => .float

@[simp] theorem ofValue?_toValue (v : EventValue) : ofValue? v.toValue = some v := by
  cases v <;> rfl

end EventValue

/-- One observable interaction: a call of a named function with its arguments and its result. -/
structure Event where
  /-- The function. -/
  name : String
  /-- The arguments. -/
  args : List EventValue
  /-- The result. -/
  result : EventValue
  deriving DecidableEq, Repr

/-- The text of an event. -/
def Event.toText (e : Event) : String :=
  e.name ++ "(" ++ String.intercalate ", " (e.args.map fun v => v.toValue.toText) ++ ") = " ++
    e.result.toValue.toText

/-- What an external call yields. -/
structure Outcome where
  /-- The result, put into the result register. -/
  result : Value
  /-- The events, added to the trace. -/
  events : List Event
  deriving DecidableEq, Repr

namespace Outcome

/-- The outcome of a call that is itself observed. -/
def observed (ef : ExternalFunction) (args : List EventValue) (result : EventValue) : Outcome :=
  ⟨result.toValue, [⟨ef.name, args, result⟩]⟩

/-- The outcome of a call that nobody observes. -/
def silent (result : Value) : Outcome := ⟨result, []⟩

end Outcome

/-- An implementation of external calls with states in `σ`. A call may have no outcome, which leaves
the machine stuck. -/
structure Externals (σ : Type) where
  /-- Performs a call: its outcome, if any, and the next state. -/
  call : ExternalFunction → List Value → σ → Option Outcome × σ

/-- The event forms of arguments, if they are numbers of the given types, one for each. -/
def eventArgs? : List DataType → List Value → Option (List EventValue)
  | [], [] => some []
  | t :: ts, v :: vs =>
    match EventValue.ofValue? v with
    | some e => if e.dataType = t then (eventArgs? ts vs).map (e :: ·) else none
    | none => none
  | _, _ => none

namespace Externals

/-- The outcome of a host primitive: `print_int` and `print_float` show their argument and yield
zero, `putchar` shows and yields its argument, and `abs` yields the absolute value unseen. -/
def hostOutcome? (ef : ExternalFunction) (args : List EventValue) : Option Outcome :=
  match ef.name, args with
  | "print_int", [.int _] => some (.observed ef args (.int 0#32))
  | "print_float", [.float _] => some (.observed ef args (.int 0#32))
  | "putchar", [.int c] => some (.observed ef args (.int c))
  | "abs", [.int n] => some (.silent (.int (if n.msb then -n else n)))
  | _, _ => none

/-- The host primitives. They keep no state. -/
def host : Externals Unit where
  call ef args state := ((eventArgs? ef.signature.arguments args).bind (hostOutcome? ef), state)

/-- Answers calls with a list of results, one for each call that is acceptable, and shows every such
call. Its state is the results that are left. -/
def scripted : Externals (List EventValue) where
  call ef args results :=
    match eventArgs? ef.signature.arguments args, results with
    | some es, r :: rest => (some (.observed ef es r), rest)
    | _, _ => (none, results)

end Externals

end RegisterMachine
