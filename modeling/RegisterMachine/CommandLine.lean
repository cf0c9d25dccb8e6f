import RegisterMachine.Machine.Execution
import RegisterMachine.Check
import RegisterMachine.Assembly

/-! # The command line

The tool has three commands, each of which works on the text of one program: to run it, to
check it, and to print it in canonical form. What a command line means, and what is printed for it,
is decided here without touching a file.

* `Command`, `Command.ofArgs` — what is asked for; `UsageError` for arguments that ask for nothing.
* `Failure` — why a command fails, with its exit code and text.
* `Report` — the two output texts and the exit code.
* `Action.perform`, `respond` — what a command prints.
-/

namespace RegisterMachine

/-! ## Commands -/

/-- A command, without its operands. -/
inductive Verb where
  /-- Checks a program and executes it. -/
  | run
  /-- Checks a program. -/
  | verify
  /-- Prints a program. -/
  | format
  deriving DecidableEq, Repr

namespace Verb

/-- All commands, in the order in which they are listed. -/
def all : List Verb := [.run, .verify, .format]

/-- The word for a command. -/
def name : Verb → String
  | .run => "run"
  | .verify => "verify"
  | .format => "fmt"

/-- A command with its operands. -/
def synopsis (v : Verb) : String :=
  match v with
  | .run => v.name ++ " <file.mach> [--fuel N] [--int-regs N]"
  | .verify | .format => v.name ++ " <file.mach>"

/-- What a command does. -/
def summary : Verb → String
  | .run => "Assemble, verify and execute"
  | .verify => "Check a program without running it"
  | .format => "Print the canonical text"

/-- The line that describes a command; the descriptions stand below each other. -/
def usageLine (v : Verb) : String :=
  let column := 44
  "  " ++ v.synopsis ++ String.ofList (List.replicate (column - v.synopsis.length) ' ') ++ v.summary

end Verb

/-- How to use the tool. -/
def usage : String :=
  "Usage: mach <command> [args]\n\nCommands:\n" ++
    String.join (Verb.all.map fun v => v.usageLine ++ "\n")

/-- What is to be done with a program. -/
inductive Action where
  /-- Check and execute it. -/
  | run (options : RunOptions)
  /-- Check it. -/
  | verify
  /-- Print it. -/
  | format
  deriving DecidableEq

/-- What a command line asks for. -/
inductive Command where
  /-- How to use the tool. -/
  | help
  /-- An action on the program in a file. -/
  | onFile (action : Action) (path : String)
  deriving DecidableEq

/-! ## Arguments -/

/-- Why arguments ask for nothing. -/
inductive UsageError where
  /-- There are none. -/
  | noCommand
  /-- The first one is no command. -/
  | unknownCommand (word : String)
  /-- A command has no file to work on. -/
  | missingFile (v : Verb)
  /-- A flag that there is not. -/
  | unknownFlag (flag : String)
  /-- A flag without its value. -/
  | missingValue (flag : String)
  /-- A value that is no number. -/
  | invalidValue (flag value : String)
  /-- More integer parameter registers than the standard convention has. -/
  | tooManyIntParams
  deriving DecidableEq, Repr

/-- The text of a usage error. -/
def UsageError.message : UsageError → String
  | .noCommand => usage
  | .unknownCommand word => "error: unknown command '" ++ word ++ "'\n\n" ++ usage
  | .missingFile v =>
    "error: " ++ v.name ++ " requires an input file\nUsage: mach " ++ v.synopsis ++ "\n"
  | .unknownFlag flag => "error: unknown flag '" ++ flag ++ "'\n"
  | .missingValue flag => "error: " ++ flag ++ " requires a value\n"
  | .invalidValue flag value => "error: invalid value '" ++ value ++ "' for " ++ flag ++ "\n"
  | .tooManyIntParams =>
    "error: --int-regs must be at most " ++ toString Convention.standard.intParams.length ++ "\n"

/-- The greatest number that a flag takes. -/
def maxFlagValue : Nat := 18446744073709551615

/-- Reads the value of a flag: decimal digits, after an optional plus sign. -/
def parseFlagValue? (value : String) : Option Nat :=
  let digits := match value.toList with
    | '+' :: cs => cs
    | cs => cs
  if digits.isEmpty || !digits.all Char.isDigit then none
  else
    let n := digitsToNat 0 digits
    if n ≤ maxFlagValue then some n else none

/-- The number that a flag has, given the argument behind it if there is one. -/
def flagValue (flag : String) : (value? : Option String) → Except UsageError Nat
  | none => .error (.missingValue flag)
  | some value =>
    match parseFlagValue? value with
    | some n => .ok n
    | none => .error (.invalidValue flag value)

/-- The options that a flag changes, given the argument behind it if there is one. -/
def RunOptions.withFlag (options : RunOptions) (flag : String) (value? : Option String) :
    Except UsageError RunOptions :=
  match flag with
  | "--fuel" => (flagValue flag value?).map fun n => { options with fuel := n }
  | "--int-regs" => do
    let n ← flagValue flag value?
    if n ≤ Convention.standard.intParams.length then
      return { options with convention := .withIntParams n }
    else throw .tooManyIntParams
  | _ => .error (.unknownFlag flag)

/-- The options after flags, which are read from left to right; a later one wins. -/
def RunOptions.withFlags (options : RunOptions) : List String → Except UsageError RunOptions
  | [] => .ok options
  | [flag] => options.withFlag flag none
  | flag :: value :: args => do
    let options ← options.withFlag flag (some value)
    options.withFlags args

/-- The action that a command asks for. Only running has flags; the other commands take no notice of
further arguments. -/
def Verb.action : Verb → List String → Except UsageError Action
  | .run, args => (RunOptions.withFlags {} args).map .run
  | .verify, _ => .ok .verify
  | .format, _ => .ok .format

/-- What arguments ask for. -/
def Command.ofArgs : List String → Except UsageError Command
  | [] => .error .noCommand
  | word :: args =>
    if word = "--help" ∨ word = "-h" ∨ word = "help" then .ok .help
    else
      match Verb.all.find? fun v => v.name = word with
      | none => .error (.unknownCommand word)
      | some v =>
        match args with
        | [] => .error (.missingFile v)
        | path :: args => (v.action args).map fun action => .onFile action path

/-! ## Reports -/

/-- Why a command fails. -/
inductive Failure where
  /-- The arguments ask for nothing. -/
  | usage (e : UsageError)
  /-- The file cannot be read. -/
  | unreadable (path cause : String)
  /-- The text describes no program. -/
  | assembly (e : AssemblyError)
  /-- The program is not well formed. -/
  | rejected (violations : List Violation)
  /-- The program cannot be loaded or started. -/
  | load (e : LoadError)
  /-- The run got stuck. -/
  | wrong (steps : Nat) (reason : Stuck)
  /-- The run used up its budget. -/
  | outOfFuel (steps : Nat)
  deriving DecidableEq, Repr

namespace Failure

/-- The exit code of a failure. -/
def exitCode : Failure → Nat
  | .usage _ | .unreadable _ _ | .assembly _ => 1
  | .rejected _ => 2
  | .load _ | .wrong _ _ => 3
  | .outOfFuel _ => 4

/-- The text of a failure, with its line breaks. -/
def message : Failure → String
  | .usage e => e.message
  | .unreadable path cause => "error: cannot read '" ++ path ++ "': " ++ cause ++ "\n"
  | .assembly e => "error: " ++ e.message ++ "\n"
  | .rejected violations => String.join (violations.map fun v => "error: " ++ v.message ++ "\n")
  | .load e => "error: " ++ e.message ++ "\n"
  | .wrong steps reason =>
    "error: went wrong after " ++ toString steps ++ " steps: " ++ reason.message ++ "\n"
  | .outOfFuel steps => "error: out of fuel after " ++ toString steps ++ " steps\n"

end Failure

/-- What a command leaves behind. -/
structure Report where
  /-- The exit code. -/
  code : Nat
  /-- The text on standard output. -/
  out : String
  /-- The text on standard error. -/
  err : String
  deriving DecidableEq, Repr

namespace Report

/-- The report of a command that succeeds. -/
def success (out : String) : Report := ⟨0, out, ""⟩

/-- The report of a command that fails after it printed a text. -/
def failure (out : String) (f : Failure) : Report := ⟨f.exitCode, out, f.message⟩

/-- The lines that show events, one for each. -/
def eventLines (events : List Event) : String :=
  String.join (events.map fun event => event.toText ++ "\n")

/-- The report of an execution that is advanced by at most `fuel` steps, where `out` has been printed
before. The events of a step are printed once it has been taken, and whether the run has ended is
looked at before the budget. -/
def ofExecution {σ : Type} (fuel : Nat) (out : String) (e : Execution σ) : Report :=
  match e.exitCode with
  | .ok (some code) => success (out ++ "exit " ++ toString code.toInt ++ "\n")
  | .error reason => failure out (.wrong e.steps reason)
  | .ok none =>
    match fuel with
    | 0 => failure out (.outOfFuel e.steps)
    | fuel + 1 =>
      match e.step with
      | (.ok events, e) => ofExecution fuel (out ++ eventLines events) e
      | (.error reason, e) => failure out (.wrong e.steps reason)

end Report

/-! ## Actions -/

/-- A program that is well formed under a convention. -/
def Program.checked (p : Program) (conv : Convention) : Except Failure Program :=
  match p.violations conv with
  | [] => .ok p
  | violations => .error (.rejected violations)

/-- What an action on a program leaves behind. -/
def Action.onProgram (action : Action) (path : String) (p : Program) : Except Failure Report :=
  match action with
  | .run options => do
    let p ← p.checked options.convention
    let e ← (p.execution options.convention).mapError .load
    return .ofExecution options.fuel "" e
  | .verify => do
    let p ← p.checked .standard
    return .success ("OK: " ++ path ++ " (" ++ toString p.globals.length ++ " globals)\n")
  | .format => return .success p.toText

/-- What an action on the text of a file leaves behind. -/
def Action.perform (action : Action) (path text : String) : Report :=
  match (Program.ofText text).mapError .assembly >>= action.onProgram path with
  | .ok report => report
  | .error f => .failure "" f

/-- What a command line leaves behind, where files are read by `readFile`: a text, or why there is
none. -/
def respond {m : Type → Type} [Monad m] (readFile : String → m (Except String String))
    (args : List String) : m Report :=
  match Command.ofArgs args with
  | .error e => return .failure "" (.usage e)
  | .ok .help => return ⟨0, "", usage⟩
  | .ok (.onFile action path) => do
    match ← readFile path with
    | .ok text => return action.perform path text
    | .error cause => return .failure "" (.unreadable path cause)

end RegisterMachine
