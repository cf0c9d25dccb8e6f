import RegisterMachine.Evaluation
import RegisterMachine.Convention
import RegisterMachine.External
import RegisterMachine.Machine.State
import RegisterMachine.Machine.ReturnAddress

/-! # The transition function

One step executes an instruction, enters a function or returns to a caller. Steps that perform an
external call depend on the implementation of these calls and produce events; all others are silent
and depend on the program and its return addresses alone, so the two are separate functions.

* `Environment.execute` — the effect of one instruction.
* `Environment.silentStep` — every step that is not an external call.
* `Machine`, `Machine.step` — a step of either kind.
* `Machine.initialState`, `Machine.exitCode` — where a run begins, and what its end means.
-/

namespace RegisterMachine

/-- The position after a label of a function. -/
def Function.jump (f : Function) (l : Label) : Except Stuck Nat :=
  match findLabel? f.code l with
  | some pc => .ok pc
  | none => .error (.missingLabel l)

/-- Releases a frame: its link and return-address slots must hold what the caller's record says, and
then its block is freed. -/
def Function.releaseFrame (f : Function) (sp : Value) (stack : CallStack) (mem : Memory) :
    Except Stuck Memory := do
  let link ← (mem.loadSlot sp .int f.linkSlot).mapError .memory
  if link ≠ stack.callerSp then throw (.linkMismatch link stack.callerSp)
  let ra ← (mem.loadSlot sp .int f.returnSlot).mapError .memory
  if ra ≠ stack.callerRa then throw (.returnAddressMismatch ra stack.callerRa)
  match sp with
  | .ptr b _ => (mem.free b (-f.frameSize).toInt f.stackSize.toInt).mapError .memory
  | v => throw (.memory (.notAPointer v))

/-- The stack pointer of a fresh frame. -/
def Function.frameSp (f : Function) (b : BlockId) : Value := .ptr b (-f.frameSize)

/-- Allocates a frame and puts the caller's stack pointer and return address into its slots. -/
def Function.enterFrame (f : Function) (stack : CallStack) (mem : Memory) :
    Except Stuck (Value × Memory) := do
  let (b, mem) := mem.alloc (-f.frameSize).toInt f.stackSize.toInt
  let sp := f.frameSp b
  let mem ← (mem.storeSlot sp .int f.linkSlot stack.callerSp).mapError .memory
  let mem ← (mem.storeSlot sp .int f.returnSlot stack.callerRa).mapError .memory
  return (sp, mem)

namespace Environment

/-- The function with code that a block identifies. -/
def internal (env : Environment) (b : BlockId) : Except Stuck Function :=
  match env.function? b with
  | some (.internal f) => .ok f
  | some (.external _) => .error (.notInternal b)
  | none => .error (.unknownFunction b)

/-- The block of the function to which a call goes. -/
def resolve (env : Environment) (regs : RegisterFile) : Callee → Except Stuck BlockId
  | .register r =>
    match env.functionAt? (regs.get r) with
    | some b => .ok b
    | none => .error (.notAFunction (regs.get r))
  | .symbol name =>
    match env.symbol? name with
    | none => .error (.unknownSymbol name)
    | some b =>
      if (env.function? b).isSome then .ok b else .error (.notAFunction (.ptr b 0#32))

/-- The state after an instruction of function `f` at position `pc`. -/
def execute (env : Environment) (addresses : ReturnAddresses) (f : Function) (func : BlockId)
    (sp : Value) (pc : Nat) (stack : CallStack) (regs : RegisterFile) (mem : Memory) :
    Instruction → Except Stuck State
  | .label _ => .ok ⟨.running func sp (pc + 1), stack, regs, mem⟩
  | .getStack slot t dst => do
    let v ← (mem.loadSlot sp t slot).mapError .memory
    return ⟨.running func sp (pc + 1), stack, regs.set dst v, mem⟩
  | .setStack src slot t => do
    let mem ← (mem.storeSlot sp t slot (regs.get src)).mapError .memory
    return ⟨.running func sp (pc + 1), stack, regs, mem⟩
  | .getParam slot t dst => do
    let callerSp ← (mem.loadSlot sp .int f.linkSlot).mapError .memory
    let v ← (mem.loadSlot callerSp t slot).mapError .memory
    return ⟨.running func sp (pc + 1), stack, regs.set dst v, mem⟩
  | .op op args dst =>
    match op.eval? env sp (regs.getList args) with
    | some v => .ok ⟨.running func sp (pc + 1), stack, regs.set dst v, mem⟩
    | none => .error (.undefinedOperation op.mnemonic)
  | .load chunk mode args dst =>
    match mode.eval? env sp (regs.getList args) with
    | some a => do
      let v ← (mem.loadAt chunk a).mapError .memory
      return ⟨.running func sp (pc + 1), stack, regs.set dst v, mem⟩
    | none => .error (.undefinedAddress mode.mnemonic)
  | .store chunk mode args src =>
    match mode.eval? env sp (regs.getList args) with
    | some a => do
      let mem ← (mem.storeAt chunk a (regs.get src)).mapError .memory
      return ⟨.running func sp (pc + 1), stack, regs, mem⟩
    | none => .error (.undefinedAddress mode.mnemonic)
  | .call callee => do
    let target ← env.resolve regs callee
    match addresses func f (f.code.size - (pc + 1)) with
    | some ra => return ⟨.calling target, ⟨func, sp, ra, pc + 1⟩ :: stack, regs, mem⟩
    | none => throw .noReturnAddress
  | .tailCall callee => do
    let target ← env.resolve regs callee
    let mem ← f.releaseFrame sp stack mem
    return ⟨.calling target, stack, regs, mem⟩
  | .goto l => do
    let next ← f.jump l
    return ⟨.running func sp next, stack, regs, mem⟩
  | .cond cond args l =>
    match cond.eval? (regs.getList args) with
    | some true => do
      let next ← f.jump l
      return ⟨.running func sp next, stack, regs, mem⟩
    | some false => .ok ⟨.running func sp (pc + 1), stack, regs, mem⟩
    | none => .error (.undefinedCondition cond.mnemonic)
  | .jumpTable arg targets =>
    match regs.get arg with
    | .int n =>
      if n.msb then .error (.badJumpIndex (.int n))
      else
        match targets[n.toNat]? with
        | some l => do
          let next ← f.jump l
          return ⟨.running func sp next, stack, regs, mem⟩
        | none => .error (.badJumpIndex (.int n))
    | v => .error (.badJumpIndex v)
  | .ret => do
    let mem ← f.releaseFrame sp stack mem
    return ⟨.returning, stack, regs, mem⟩

/-- The next state where no external call is to be performed. -/
def silentStep (env : Environment) (addresses : ReturnAddresses) : State → Except Stuck State
  | ⟨.running func sp pc, stack, regs, mem⟩ => do
    let f ← env.internal func
    match f.code[pc]? with
    | some instr => env.execute addresses f func sp pc stack regs mem instr
    | none => throw .endOfCode
  | ⟨.calling callee, stack, regs, mem⟩ =>
    match env.function? callee with
    | some (.internal f) => do
      let (sp, mem) ← f.enterFrame stack mem
      return ⟨.running callee sp 0, stack, regs, mem⟩
    | some (.external ef) => .error (.externalCallFailed ef.name)
    | none => .error (.unknownFunction callee)
  | ⟨.returning, [], _, _⟩ => .error .finished
  | ⟨.returning, a :: stack, regs, mem⟩ => .ok ⟨.running a.func a.sp a.pc, stack, regs, mem⟩

/-- The external function that the next step calls, if it calls one. -/
def externalCall? (env : Environment) (s : State) : Option ExternalFunction :=
  match s.control with
  | .calling b =>
    match env.function? b with
    | some (.external ef) => some ef
    | _ => none
  | _ => none

end Environment

/-- The value at the location of an argument: a register, or a slot of the caller's frame. -/
def Location.value (regs : RegisterFile) (mem : Memory) (callerSp : Value) :
    Location → Except MemoryError Value
  | .register r => .ok (regs.get r)
  | .outgoing slot t => mem.loadSlot callerSp t (BitVec.ofNat 32 slot)

/-- The values of the arguments of a call, in order. -/
def Convention.arguments (conv : Convention) (sig : Signature) (regs : RegisterFile) (mem : Memory)
    (callerSp : Value) : Except MemoryError (List Value) :=
  (conv.locations sig).mapM (Location.value regs mem callerSp)

/-- A successful step: its events and the next state. -/
structure Transition where
  /-- The events of the step, in order. -/
  events : List Event
  /-- The next state. -/
  state : State
  deriving DecidableEq

/-- A machine for one program, with all that its steps depend on. -/
structure Machine (σ : Type) where
  /-- The loaded program. -/
  env : Environment
  /-- Where arguments and results of calls are. -/
  convention : Convention
  /-- The return addresses of calls. -/
  returnAddress : ReturnAddresses
  /-- The implementation of external calls. -/
  externals : Externals σ

namespace Machine

variable {σ : Type}

/-- Performs an external call: gathers the arguments, and binds the result. -/
def externalStep (m : Machine σ) (ef : ExternalFunction) (s : State) (host : σ) :
    Except Stuck Transition × σ :=
  match m.convention.arguments ef.signature s.regs s.mem s.stack.callerSp with
  | .error e => (.error (.memory e), host)
  | .ok args =>
    match m.externals.call ef args host with
    | (none, host) => (.error (.externalCallFailed ef.name), host)
    | (some outcome, host) =>
      let regs := s.regs.set (m.convention.resultRegister ef.signature) outcome.result
      (.ok ⟨outcome.events, ⟨.returning, s.stack, regs, s.mem⟩⟩, host)

/-- One step, from a state of the machine and a state of the external calls. -/
def step (m : Machine σ) (s : State) (host : σ) : Except Stuck Transition × σ :=
  match m.env.externalCall? s with
  | some ef => m.externalStep ef s host
  | none => ((m.env.silentStep m.returnAddress s).map fun s => ⟨[], s⟩, host)

/-- Whether the next step performs an external call. -/
def atExternalStep (m : Machine σ) (s : State) : Bool := (m.env.externalCall? s).isSome

/-- What the end of a run means: the exit code of a final state, an error for a final state without
one, and nothing for any other state. -/
def exitCode (m : Machine σ) (s : State) : Except Stuck (Option Word) :=
  if s.isFinal then
    match s.regs.get (m.convention.resultRegister .main) with
    | .int n => .ok (some n)
    | v => .error (.badExitValue v)
  else .ok none

end Machine

/-- The state that calls the function of a name, with no callers and every register undefined. -/
def Environment.initialState (env : Environment) (entry : String) (mem : Memory) :
    Except LoadError State :=
  match env.symbol? entry with
  | none => .error (.missingEntry entry)
  | some b =>
    if (env.function? b).isSome then .ok ⟨.calling b, [], .empty, mem⟩
    else .error (.entryNotFunction entry)

end RegisterMachine
