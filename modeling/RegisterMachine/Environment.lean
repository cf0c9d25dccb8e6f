import RegisterMachine.Memory.Slot
import RegisterMachine.Program

/-! # The global environment

Loading a program gives every global a block of its own, in the order of declaration and numbered
from one. The block of a function is empty and only identifies it; the block of a variable holds its
initial contents. The environment answers what a symbol, a block or a function pointer stands for.

* `Environment` — the globals of a loaded program.
* `Environment.symbol?`, `Environment.name?`, `Environment.function?`, `Environment.functionAt?` —
  the look-ups.
* `Program.load` — the environment and the initial memory of a program.
* `LoadError` — why a program cannot be loaded or started, and its text.
-/

namespace RegisterMachine

/-- Why a program cannot be loaded or started. -/
inductive LoadError where
  /-- Two globals have one name. -/
  | duplicateSymbol (name : String)
  /-- Initial contents refer to a symbol that is no global. -/
  | unknownSymbol (name : String)
  /-- No global has the name of the entry point. -/
  | missingEntry (name : String)
  /-- A variable exceeds the greatest size. -/
  | variableTooLarge (name : String) (size : Nat)
  /-- The entry point is a variable. -/
  | entryNotFunction (name : String)
  /-- Initial contents do not fit their block. -/
  | memory (e : MemoryError)
  deriving DecidableEq, Repr

/-- The text of a load error. -/
def LoadError.message : LoadError → String
  | .duplicateSymbol name => "symbol '" ++ name ++ "' defined more than once"
  | .unknownSymbol name => "initializer refers to unknown symbol '" ++ name ++ "'"
  | .missingEntry name => "entry point '" ++ name ++ "' is not defined"
  | .variableTooLarge name size =>
    "variable '" ++ name ++ "' of " ++ toString size ++ " bytes exceeds the limit of " ++
      toString maxVariableSize
  | .entryNotFunction name => "entry point '" ++ name ++ "' is not a function"
  | .memory e => "initializing globals: " ++ e.message

/-- The globals of a loaded program, the first of which has block 1. -/
structure Environment where
  /-- Names and definitions in the order of their blocks. -/
  globals : Array (String × Global)

namespace Environment

/-! ## Look-ups -/

/-- The name and definition of the global with a given block. -/
def entry? (env : Environment) : BlockId → Option (String × Global)
  | 0 => none
  | n + 1 => env.globals[n]?

/-- The block of a symbol. -/
def symbol? (env : Environment) (name : String) : Option BlockId :=
  (env.globals.findIdx? fun g => g.1 = name).map (· + 1)

/-- The name of the global with a given block. -/
def name? (env : Environment) (b : BlockId) : Option String := (env.entry? b).map (·.1)

/-- The address of a symbol plus a byte offset. -/
def address? (env : Environment) (name : String) (offset : Word) : Option Value :=
  (env.symbol? name).map fun b => .ptr b offset

/-- The function that a block identifies. -/
def function? (env : Environment) (b : BlockId) : Option FunctionDef :=
  match env.entry? b with
  | some (_, .function d) => some d
  | _ => none

/-- The block of the function that a value points to. Only a pointer to the start of the block of a
function does. -/
def functionAt? (env : Environment) : Value → Option BlockId
  | .ptr b offset => if offset = 0#32 ∧ (env.function? b).isSome then some b else none
  | _ => none

/-! ## Loading -/

/-- The number of bytes in the block of a global; a variable must keep within the greatest size. -/
def blockSize (name : String) : Global → Except LoadError Nat
  | .function _ => .ok 0
  | .variable init =>
    let size := InitialData.totalSize init
    if size ≤ maxVariableSize then .ok size else .error (.variableTooLarge name size)

/-- Allocates a block for each global, given the names that are already taken. -/
def allocate (m : Memory) (taken : List String) : List (String × Global) → Except LoadError Memory
  | [] => .ok m
  | (name, g) :: rest =>
    if name ∈ taken then .error (.duplicateSymbol name)
    else
      match blockSize name g with
      | .error e => .error e
      | .ok size => allocate (m.alloc 0 size).2 (name :: taken) rest

/-- Writes zero bytes from an offset on. -/
def storeZeros (m : Memory) (b : BlockId) (offset : Nat) : (count : Nat) → Except MemoryError Memory
  | 0 => .ok m
  | count + 1 =>
    match m.store .int8Unsigned b offset (.int 0#32) with
    | .error e => .error e
    | .ok m' => storeZeros m' b (offset + 1) count

/-- Writes one item of initial contents at an offset. -/
def storeItem (env : Environment) (m : Memory) (b : BlockId) (offset : Nat) :
    InitialData → Except LoadError Memory
  | .int8 n => (m.store .int8Unsigned b offset (.int n)).mapError .memory
  | .int16 n => (m.store .int16Unsigned b offset (.int n)).mapError .memory
  | .int32 n => (m.store .int32 b offset (.int n)).mapError .memory
  | .float32 x => (m.store .float32 b offset (.float x)).mapError .memory
  | .float64 x => (m.store .float64 b offset (.float x)).mapError .memory
  | .space count => (storeZeros m b offset count.toNat).mapError .memory
  | .address symbol delta =>
    match env.address? symbol delta with
    | some a => (m.store .int32 b offset a).mapError .memory
    | none => .error (.unknownSymbol symbol)

/-- Writes items of initial contents one after the other from an offset on. -/
def storeItems (env : Environment) (m : Memory) (b : BlockId) (offset : Nat) :
    List InitialData → Except LoadError Memory
  | [] => .ok m
  | item :: items =>
    match env.storeItem m b offset item with
    | .error e => .error e
    | .ok m' => env.storeItems m' b (offset + item.size) items

/-- Writes the initial contents of the variables among globals, the first of which has block `b`. -/
def fillVariables (env : Environment) (m : Memory) (b : BlockId) :
    List (String × Global) → Except LoadError Memory
  | [] => .ok m
  | (_, .function _) :: rest => env.fillVariables m (b + 1) rest
  | (_, .variable init) :: rest =>
    match env.storeItems m b 0 init with
    | .error e => .error e
    | .ok m' => env.fillVariables m' (b + 1) rest

end Environment

/-- The environment and the initial memory of a program. Every block is allocated before the first
variable is filled, so initial contents may refer to any symbol. -/
def Program.load (p : Program) : Except LoadError (Environment × Memory) :=
  let env : Environment := ⟨p.globals.toArray⟩
  match Environment.allocate .empty [] p.globals with
  | .error e => .error e
  | .ok m =>
    match env.fillVariables m 1 p.globals with
    | .error e => .error e
    | .ok m' => .ok (env, m')

end RegisterMachine
