import RegisterMachine.Machine.Step

/-! # Executions and behaviors

An execution is a run in progress: the machine, its current state or the reason why it has none, and
the trace so far. It is advanced step by step, or driven until it ends or a budget of steps is used
up.

* `Execution`, `Execution.start`, `Execution.step` — stepping by hand.
* `Execution.drive` — many steps at once.
* `Behavior`, `Execution.run`, `Program.run` — what can be observed of a whole run.
-/

namespace RegisterMachine

/-- Where an execution stands. -/
inductive Status where
  /-- It is in a state. -/
  | live (s : State)
  /-- A step failed, and every later one fails in the same way. -/
  | wrong (reason : Stuck)
  deriving DecidableEq

/-- A run in progress. -/
structure Execution (σ : Type) where
  /-- The machine. -/
  machine : Machine σ
  /-- The state of external calls. -/
  host : σ
  /-- The current state, or the failure. -/
  status : Status
  /-- All events so far. -/
  trace : Array Event
  /-- Number of successful steps so far. It has no width: what becomes of a number of 64 bits after
  2 ^ 64 steps is left out. -/
  steps : Nat

/-- How a driven execution came to a halt. -/
inductive Halt where
  /-- The entry point returned an exit code. -/
  | exit (code : Word)
  /-- There was no next state, or no exit code. -/
  | wrong (reason : Stuck)
  /-- The budget was used up. -/
  | outOfFuel
  deriving DecidableEq, Repr

/-- What can be observed of a run. -/
inductive Behavior where
  /-- The entry point returned an exit code. -/
  | terminates (trace : List Event) (code : Word)
  /-- A state had no successor, or the entry point returned no integer. -/
  | goesWrong (trace : List Event) (reason : Stuck)
  /-- The run had not ended when its budget of steps was used up. -/
  | diverges (trace : List Event)
  deriving DecidableEq, Repr

/-- The events of a run. -/
def Behavior.trace : Behavior → List Event
  | .terminates trace _ => trace
  | .goesWrong trace _ => trace
  | .diverges trace => trace

namespace Execution

variable {σ : Type}

/-- The execution that has not taken a step yet. -/
def start (machine : Machine σ) (host : σ) (s : State) : Execution σ :=
  ⟨machine, host, .live s, #[], 0⟩

/-- The current state; none after a failure. -/
def state? (e : Execution σ) : Option State :=
  match e.status with
  | .live s => some s
  | .wrong _ => none

/-- Takes one step. A failure is kept and reported by every later step; a final state is kept too,
but its steps fail because the run has finished. -/
def step : Execution σ → Except Stuck (List Event) × Execution σ
  | ⟨machine, host, .wrong reason, trace, steps⟩ =>
    (.error reason, ⟨machine, host, .wrong reason, trace, steps⟩)
  | ⟨machine, host, .live s, trace, steps⟩ =>
    if s.isFinal then (.error .finished, ⟨machine, host, .live s, trace, steps⟩)
    else
      match machine.step s host with
      | (.ok t, host) =>
        (.ok t.events, ⟨machine, host, .live t.state, trace.appendList t.events, steps + 1⟩)
      | (.error reason, host) => (.error reason, ⟨machine, host, .wrong reason, trace, steps⟩)

/-- The exit code, once the entry point has returned. -/
def exitCode (e : Execution σ) : Except Stuck (Option Word) :=
  match e.status with
  | .live s => e.machine.exitCode s
  | .wrong _ => .ok none

/-- Takes steps until the execution halts, at most `fuel` of them. Whether the run has ended is
looked at before the budget. -/
def drive (fuel : Nat) (e : Execution σ) : Halt × Execution σ :=
  match e.exitCode with
  | .ok (some code) => (.exit code, e)
  | .error reason => (.wrong reason, e)
  | .ok none =>
    match fuel with
    | 0 => (.outOfFuel, e)
    | fuel + 1 =>
      match e.step with
      | (.ok _, e) => drive fuel e
      | (.error reason, e) => (.wrong reason, e)

/-- The behavior of an execution that is driven with a budget of steps. -/
def run (fuel : Nat) (e : Execution σ) : Behavior :=
  match e.drive fuel with
  | (.exit code, e) => .terminates e.trace.toList code
  | (.wrong reason, e) => .goesWrong e.trace.toList reason
  | (.outOfFuel, e) => .diverges e.trace.toList

end Execution

/-- Number of steps that a run may take where nothing else is said. -/
def defaultFuel : Nat := 10000000

/-- How a program is run. -/
structure RunOptions where
  /-- The greatest number of steps. -/
  fuel : Nat := defaultFuel
  /-- Where arguments and results of calls are. -/
  convention : Convention := .standard
  deriving DecidableEq

/-- An execution of a program under the host primitives, with return addresses by position in the
code. -/
def Program.execution (p : Program) (convention : Convention) : Except LoadError (Execution Unit) :=
  match p.load with
  | .error e => .error e
  | .ok (env, mem) =>
    match env.initialState p.entry mem with
    | .error e => .error e
    | .ok s => .ok (.start ⟨env, convention, .codeOffset, .host⟩ () s)

/-- Loads and runs a program. -/
def Program.run (p : Program) (options : RunOptions) : Except LoadError Behavior :=
  (p.execution options.convention).map fun e => e.run options.fuel

end RegisterMachine
