import RegisterMachine.Proofs.Machine.Simulation
import RegisterMachine.Proofs.Renaming.Memory

/-! # Renaming blocks in runs

A machine whose environment has renamed blocks goes through renamed states: it takes a step where
the other machine takes one, with the same events, and gets stuck where the other one does, for the
renamed reason. So all that can be observed of its runs is the same, up to the blocks that the
reason for being stuck names.

* `Stuck.rename`, `State.Renames` — reasons and states.
* `Environment.Renames.execute`, `Environment.Renames.silentStep` — steps that are no external
  calls.
* `Externals.IgnoresBlocks` — external calls to which blocks mean nothing; `Externals.host` and
  `Externals.scripted` are such.
* `Machine.Renames.step` — all steps.
* `Behavior.rename`, `Execution.Renames.run` — whole runs.
-/

namespace RegisterMachine

variable {ρ : BlockId → BlockId}

/-! ## States -/

/-- The registers of one file have the values of those of another one, renamed. -/
def RegisterFile.Renames (ρ : BlockId → BlockId) (regs regs' : RegisterFile) : Prop :=
  ∀ r, regs'.get r = (regs.get r).rename ρ

namespace RegisterFile.Renames

variable {regs regs' : RegisterFile}

/-- Undefined registers have nothing to rename. -/
theorem empty : Renames ρ RegisterFile.empty RegisterFile.empty := by
  intro r
  rw [get_empty]
  rfl

/-- Registers stay renamed when one is bound to a renamed value. -/
theorem set (h : regs.Renames ρ regs') (r : Register) (v : Value) :
    (regs.set r v).Renames ρ (regs'.set r (v.rename ρ)) := by
  intro r'
  by_cases heq : r = r'
  · subst heq
    rw [get_set_self, get_set_self]
  · rw [get_set_of_ne _ _ heq, get_set_of_ne _ _ heq, h r']

/-- The values of several registers are renamed. -/
theorem getList (h : regs.Renames ρ regs') (rs : List Register) :
    regs'.getList rs = (regs.getList rs).map (Value.rename ρ) := by
  rw [RegisterFile.getList, RegisterFile.getList, List.map_map]
  exact List.map_congr_left fun r _ => h r

end RegisterFile.Renames

/-- The record of a caller in which blocks are renamed. -/
def Activation.rename (ρ : BlockId → BlockId) (a : Activation) : Activation :=
  ⟨ρ a.func, a.sp.rename ρ, a.ra.rename ρ, a.pc⟩

/-- Callers in the records of which blocks are renamed. -/
def CallStack.rename (ρ : BlockId → BlockId) (stack : CallStack) : CallStack :=
  stack.map (Activation.rename ρ)

namespace CallStack

variable (stack : CallStack)

/-- The stack pointer of the innermost caller is renamed. -/
theorem callerSp_rename : (stack.rename ρ).callerSp = stack.callerSp.rename ρ := by
  cases stack <;> rfl

/-- The return address of the innermost caller is renamed. -/
theorem callerRa_rename : (stack.rename ρ).callerRa = stack.callerRa.rename ρ := by
  cases stack <;> rfl

end CallStack

/-- What is to be done, with its blocks renamed. -/
def Control.rename (ρ : BlockId → BlockId) : Control → Control
  | .running func sp pc => .running (ρ func) (sp.rename ρ) pc
  | .calling b => .calling (ρ b)
  | .returning => .returning

/-- The reason for being stuck in which blocks are renamed. -/
def Stuck.rename (ρ : BlockId → BlockId) : Stuck → Stuck
  | .memory e => .memory (e.rename ρ)
  | .notAFunction v => .notAFunction (v.rename ρ)
  | .unknownFunction b => .unknownFunction (ρ b)
  | .notInternal b => .notInternal (ρ b)
  | .badJumpIndex v => .badJumpIndex (v.rename ρ)
  | .linkMismatch stored expected => .linkMismatch (stored.rename ρ) (expected.rename ρ)
  | .returnAddressMismatch stored expected =>
    .returnAddressMismatch (stored.rename ρ) (expected.rename ρ)
  | .badExitValue v => .badExitValue (v.rename ρ)
  | e => e

/-- One state is another one with its blocks renamed. -/
structure State.Renames (ρ : BlockId → BlockId) (s s' : State) : Prop where
  /-- The same is to be done. -/
  control : s'.control = s.control.rename ρ
  /-- The same callers are suspended. -/
  stack : s'.stack = s.stack.rename ρ
  /-- Registers hold the renamed values. -/
  regs : s.regs.Renames ρ s'.regs
  /-- Memory is renamed. -/
  mem : s.mem.Renames ρ s'.mem

/-- Both states are final or none is. -/
theorem State.Renames.isFinal_eq {s s' : State} (h : s.Renames ρ s') : s'.isFinal = s.isFinal := by
  rw [Bool.eq_iff_iff, isFinal_iff, isFinal_iff, h.control, h.stack, CallStack.rename,
    List.map_eq_nil_iff]
  cases s.control <;> simp [Control.rename]

/-- Results of memory correspond as results of a step. -/
theorem Corresponds.memory {α β : Type} {R : α → β → Prop} {x : Except MemoryError α}
    {y : Except MemoryError β} (h : Corresponds (MemoryError.rename ρ) R x y) :
    Corresponds (Stuck.rename ρ) R (x.mapError .memory) (y.mapError .memory) :=
  h.mapError fun _ => rfl

/-! ## Frames -/

namespace Function

variable {mem mem' : Memory} (f : Function) (sp : Value) (stack : CallStack)

/-- A frame of which the blocks are renamed is left where the other one is. -/
theorem releaseFrame_renames (h : mem.Renames ρ mem') :
    Corresponds (Stuck.rename ρ) (Memory.Renames ρ) (f.releaseFrame sp stack mem)
      (f.releaseFrame (sp.rename ρ) (stack.rename ρ) mem') := by
  unfold releaseFrame
  refine (h.loadSlot sp .int f.linkSlot).memory.bind ?_
  rintro link _ rfl
  have hinj := Value.rename_injective h.injective
  simp only [CallStack.callerSp_rename, CallStack.callerRa_rename, ne_eq, hinj.eq_iff]
  split
  · exact .error (Stuck.linkMismatch link stack.callerSp)
  refine (h.loadSlot sp .int f.returnSlot).memory.bind ?_
  rintro ra _ rfl
  simp only [hinj.eq_iff]
  split
  · exact .error (Stuck.returnAddressMismatch ra stack.callerRa)
  cases sp with
  | ptr b o => exact (h.free b _ _).memory
  | int n => exact .error (Stuck.memory (.notAPointer (.int n)))
  | float x => exact .error (Stuck.memory (.notAPointer (.float x)))
  | undefined => exact .error (Stuck.memory (.notAPointer .undefined))

/-- A frame is entered on both sides in the same block. -/
theorem enterFrame_renames (h : mem.Renames ρ mem') :
    Corresponds (Stuck.rename ρ) (fun r r' => r'.1 = r.1.rename ρ ∧ r.2.Renames ρ r'.2)
      (f.enterFrame stack mem) (f.enterFrame (stack.rename ρ) mem') := by
  have hsp : f.frameSp mem'.nextBlock = (f.frameSp mem.nextBlock).rename ρ := by
    rw [frameSp, frameSp, Value.rename_ptr, h.nextBlock, h.fresh _ (Nat.le_refl _)]
  simp only [enterFrame, Memory.fst_alloc, hsp, CallStack.callerSp_rename,
    CallStack.callerRa_rename]
  refine (h.alloc.storeSlot _ .int f.linkSlot _).memory.bind fun m₁ m₁' h₁ => ?_
  refine (h₁.storeSlot _ .int f.returnSlot _).memory.bind fun m₂ m₂' h₂ => ?_
  exact .ok ⟨rfl, h₂⟩

end Function

/-! ## Silent steps -/

/-- Return addresses do not look at the number of a block, they only take it over. -/
def ReturnAddresses.CommutesWith (addresses : ReturnAddresses) (ρ : BlockId → BlockId) : Prop :=
  ∀ b f remaining, addresses (ρ b) f remaining = (addresses b f remaining).map (Value.rename ρ)

/-- Return addresses by position in the code do so. -/
theorem ReturnAddresses.codeOffset_commutesWith : codeOffset.CommutesWith ρ := by
  intro b f remaining
  unfold codeOffset
  split
  · rw [Option.map_map]
    rfl
  · rfl

namespace Environment.Renames

variable {env env' : Environment} {addresses : ReturnAddresses} {regs regs' : RegisterFile}
  {mem mem' : Memory} {s s' : State}

/-- A renamed block identifies the same function with code, or none for the same reason. -/
theorem internal (h : env.Renames ρ env') (b : BlockId) :
    Corresponds (Stuck.rename ρ) (fun f f' => f' = f) (env.internal b) (env'.internal (ρ b)) := by
  rw [Environment.internal, Environment.internal, h.function?]
  split
  · exact .ok rfl
  · exact .error (Stuck.notInternal b)
  · exact .error (Stuck.unknownFunction b)

/-- A call goes to the renamed block. -/
theorem resolve (h : env.Renames ρ env') (hregs : regs.Renames ρ regs') (callee : Callee) :
    Corresponds (Stuck.rename ρ) (fun b b' => b' = ρ b) (env.resolve regs callee)
      (env'.resolve regs' callee) := by
  cases callee with
  | register r =>
    simp only [Environment.resolve, hregs r, h.functionAt?]
    cases env.functionAt? (regs.get r) with
    | none => exact .error (Stuck.notAFunction (regs.get r))
    | some b => exact .ok rfl
  | symbol name =>
    simp only [Environment.resolve, h.symbol?]
    cases env.symbol? name with
    | none => exact .error (Stuck.unknownSymbol name)
    | some b =>
      simp only [Option.map_some, h.function?]
      split
      · exact .ok rfl
      · exact .error (Stuck.notAFunction (.ptr b 0#32))

/-- A jump goes to a position, which has nothing to rename. -/
theorem jump (ρ : BlockId → BlockId) (f : Function) (l : Label) :
    Corresponds (Stuck.rename ρ) (fun pc pc' => pc' = pc) (f.jump l) (f.jump l) := by
  unfold Function.jump
  split
  · exact .ok rfl
  · exact .error (Stuck.missingLabel l)

/-- An instruction leads to renamed states. -/
theorem execute (h : env.Renames ρ env') (haddresses : addresses.CommutesWith ρ) (f : Function)
    (func : BlockId) (sp : Value) (pc : Nat) (stack : CallStack) (hregs : regs.Renames ρ regs')
    (hmem : mem.Renames ρ mem') (i : Instruction) :
    Corresponds (Stuck.rename ρ) (State.Renames ρ)
      (env.execute addresses f func sp pc stack regs mem i)
      (env'.execute addresses f (ρ func) (sp.rename ρ) pc (stack.rename ρ) regs' mem' i) := by
  cases i with
  | label l => exact .ok ⟨rfl, rfl, hregs, hmem⟩
  | getStack slot t dst =>
    refine (hmem.loadSlot sp t slot).memory.bind ?_
    rintro v _ rfl
    exact .ok ⟨rfl, rfl, hregs.set dst v, hmem⟩
  | setStack src slot t =>
    simp only [Environment.execute, hregs src]
    refine (hmem.storeSlot sp t slot (regs.get src)).memory.bind fun m₁ m₁' hmem₁ => ?_
    exact .ok ⟨rfl, rfl, hregs, hmem₁⟩
  | getParam slot t dst =>
    refine (hmem.loadSlot sp .int f.linkSlot).memory.bind ?_
    rintro callerSp _ rfl
    refine (hmem.loadSlot callerSp t slot).memory.bind ?_
    rintro v _ rfl
    exact .ok ⟨rfl, rfl, hregs.set dst v, hmem⟩
  | op op args dst =>
    simp only [Environment.execute, hregs.getList, op.eval?_rename h]
    cases op.eval? env sp (regs.getList args) with
    | none => exact .error (Stuck.undefinedOperation op.mnemonic)
    | some v => exact .ok ⟨rfl, rfl, hregs.set dst v, hmem⟩
  | load chunk mode args dst =>
    simp only [Environment.execute, hregs.getList, mode.eval?_rename h]
    cases mode.eval? env sp (regs.getList args) with
    | none => exact .error (Stuck.undefinedAddress mode.mnemonic)
    | some a =>
      refine (hmem.loadAt chunk a).memory.bind ?_
      rintro v _ rfl
      exact .ok ⟨rfl, rfl, hregs.set dst v, hmem⟩
  | store chunk mode args src =>
    simp only [Environment.execute, hregs.getList, mode.eval?_rename h, hregs src]
    cases mode.eval? env sp (regs.getList args) with
    | none => exact .error (Stuck.undefinedAddress mode.mnemonic)
    | some a =>
      refine (hmem.storeAt chunk a (regs.get src)).memory.bind fun m₁ m₁' hmem₁ => ?_
      exact .ok ⟨rfl, rfl, hregs, hmem₁⟩
  | call callee =>
    refine (h.resolve hregs callee).bind ?_
    rintro target _ rfl
    rw [haddresses]
    cases addresses func f (f.code.size - (pc + 1)) with
    | none => exact .error Stuck.noReturnAddress
    | some ra => exact .ok ⟨rfl, rfl, hregs, hmem⟩
  | tailCall callee =>
    refine (h.resolve hregs callee).bind ?_
    rintro target _ rfl
    refine (f.releaseFrame_renames sp stack hmem).bind fun m₁ m₁' hmem₁ => ?_
    exact .ok ⟨rfl, rfl, hregs, hmem₁⟩
  | goto l =>
    refine (jump ρ f l).bind ?_
    rintro next _ rfl
    exact .ok ⟨rfl, rfl, hregs, hmem⟩
  | cond cond args l =>
    simp only [Environment.execute, hregs.getList, cond.eval?_rename h.injective]
    cases cond.eval? (regs.getList args) with
    | none => exact .error (Stuck.undefinedCondition cond.mnemonic)
    | some holds =>
      cases holds with
      | false => exact .ok ⟨rfl, rfl, hregs, hmem⟩
      | true =>
        refine (jump ρ f l).bind ?_
        rintro next _ rfl
        exact .ok ⟨rfl, rfl, hregs, hmem⟩
  | jumpTable arg targets =>
    simp only [Environment.execute, hregs arg]
    cases regs.get arg with
    | int n =>
      simp only [Value.rename_int]
      split
      · exact .error (Stuck.badJumpIndex (.int n))
      · split
        · refine (jump ρ f _).bind ?_
          rintro next _ rfl
          exact .ok ⟨rfl, rfl, hregs, hmem⟩
        · exact .error (Stuck.badJumpIndex (.int n))
    | float x => exact .error (Stuck.badJumpIndex (.float x))
    | ptr b o => exact .error (Stuck.badJumpIndex (.ptr b o))
    | undefined => exact .error (Stuck.badJumpIndex .undefined)
  | ret =>
    refine (f.releaseFrame_renames sp stack hmem).bind fun m₁ m₁' hmem₁ => ?_
    exact .ok ⟨rfl, rfl, hregs, hmem₁⟩

/-- A silent step leads to renamed states. -/
theorem silentStep (h : env.Renames ρ env') (haddresses : addresses.CommutesWith ρ)
    (hs : s.Renames ρ s') :
    Corresponds (Stuck.rename ρ) (State.Renames ρ) (env.silentStep addresses s)
      (env'.silentStep addresses s') := by
  obtain ⟨control, stack, regs, mem⟩ := s
  obtain ⟨control', stack', regs', mem'⟩ := s'
  obtain ⟨rfl, rfl, hregs, hmem⟩ := hs
  cases control with
  | running func sp pc =>
    refine (h.internal func).bind ?_
    rintro f _ rfl
    split
    · exact h.execute haddresses _ func sp pc stack hregs hmem _
    · exact .error Stuck.endOfCode
  | calling callee =>
    simp only [Control.rename, Environment.silentStep, h.function?]
    split
    · refine (Function.enterFrame_renames _ stack hmem).bind ?_
      rintro ⟨sp, mem₁⟩ ⟨sp', mem₁'⟩ ⟨hsp, hmem₁⟩
      simp only at hsp
      subst hsp
      exact .ok ⟨rfl, rfl, hregs, hmem₁⟩
    · exact .error (Stuck.externalCallFailed _)
    · exact .error (Stuck.unknownFunction callee)
  | returning =>
    cases stack with
    | nil => exact .error Stuck.finished
    | cons a stack => exact .ok ⟨rfl, rfl, hregs, hmem⟩

/-- The same external function is called. -/
theorem externalCall? (h : env.Renames ρ env') (hs : s.Renames ρ s') :
    env'.externalCall? s' = env.externalCall? s := by
  rw [Environment.externalCall?, Environment.externalCall?, hs.control]
  cases s.control with
  | running func sp pc => rfl
  | calling b => simp only [Control.rename, h.function?]
  | returning => rfl

end Environment.Renames

/-! ## External calls -/

/-- The values of the arguments of a call are renamed. -/
theorem Convention.arguments_renames (conv : Convention) (sig : Signature)
    {regs regs' : RegisterFile} {mem mem' : Memory} (hregs : regs.Renames ρ regs')
    (hmem : mem.Renames ρ mem') (callerSp : Value) :
    Corresponds (MemoryError.rename ρ) (fun vs vs' => vs' = vs.map (Value.rename ρ))
      (conv.arguments sig regs mem callerSp)
      (conv.arguments sig regs' mem' (callerSp.rename ρ)) := by
  refine Corresponds.mapM fun location _ => ?_
  cases location with
  | register r => exact .ok (hregs r)
  | outgoing slot t => exact hmem.loadSlot callerSp t _

/-- Pointers have no event form, and numbers have nothing to rename. -/
theorem eventArgs?_rename (ts : List DataType) (args : List Value) :
    eventArgs? ts (args.map (Value.rename ρ)) = eventArgs? ts args := by
  induction ts generalizing args with
  | nil => cases args <;> rfl
  | cons t ts ih =>
    cases args with
    | nil => rfl
    | cons v args =>
      have hv : EventValue.ofValue? (v.rename ρ) = EventValue.ofValue? v := by cases v <;> rfl
      simp only [List.map_cons, eventArgs?, hv, ih]

/-- A value in an event has nothing to rename. -/
theorem EventValue.toValue_rename (v : EventValue) : v.toValue.rename ρ = v.toValue := by
  cases v <;> rfl

/-- External calls to which blocks mean nothing: they do not look at the blocks of pointers, and
have no pointers as results. -/
structure Externals.IgnoresBlocks {σ : Type} (x : Externals σ) : Prop where
  /-- Arguments in which blocks are renamed have the same outcome. -/
  arguments : ∀ (ρ : BlockId → BlockId) ef args host,
    x.call ef (args.map (Value.rename ρ)) host = x.call ef args host
  /-- A result has nothing to rename. -/
  result : ∀ (ρ : BlockId → BlockId) ef args host outcome,
    (x.call ef args host).1 = some outcome → outcome.result.rename ρ = outcome.result

namespace Externals

/-- The host primitives ignore blocks. -/
theorem ignoresBlocks_host : host.IgnoresBlocks where
  arguments := fun ρ ef args state => by simp only [host, eventArgs?_rename]
  result := fun ρ ef args state outcome h => by
    obtain ⟨es, -, h⟩ := Option.bind_eq_some_iff.1 h
    unfold hostOutcome? at h
    split at h <;> cases h <;> rfl

/-- Results fixed in advance ignore blocks. -/
theorem ignoresBlocks_scripted : scripted.IgnoresBlocks where
  arguments := fun ρ ef args results => by simp only [scripted, eventArgs?_rename]
  result := fun ρ ef args results outcome h => by
    simp only [scripted] at h
    split at h
    · cases h
      exact EventValue.toValue_rename _
    · cases h

end Externals

/-! ## Steps of a machine -/

/-- One transition is another one with its blocks renamed. -/
structure Transition.Renames (ρ : BlockId → BlockId) (t t' : Transition) : Prop where
  /-- The events are the same. -/
  events : t'.events = t.events
  /-- The next state is renamed. -/
  state : t.state.Renames ρ t'.state

variable {σ : Type}

/-- Two machines differ only in the blocks of their environments, which mean nothing to their
surroundings. -/
structure Machine.Renames (ρ : BlockId → BlockId) (m m' : Machine σ) : Prop where
  /-- The blocks of the environment are renamed. -/
  env : m.env.Renames ρ m'.env
  /-- The convention is the same. -/
  convention : m'.convention = m.convention
  /-- Return addresses are the same. -/
  returnAddress : m'.returnAddress = m.returnAddress
  /-- Return addresses take blocks over. -/
  commutesWith : m.returnAddress.CommutesWith ρ
  /-- External calls are the same. -/
  externals : m'.externals = m.externals
  /-- External calls ignore blocks. -/
  ignoresBlocks : m.externals.IgnoresBlocks

namespace Machine.Renames

variable {m m' : Machine σ} {s s' : State}

/-- An external call leads to renamed states, with the same events. -/
theorem externalStep (h : m.Renames ρ m') (hs : s.Renames ρ s') (ef : ExternalFunction)
    (host : σ) :
    Corresponds (Stuck.rename ρ) (Transition.Renames ρ) (m.externalStep ef s host).1
        (m'.externalStep ef s' host).1 ∧
      (m'.externalStep ef s' host).2 = (m.externalStep ef s host).2 := by
  have hargs := m.convention.arguments_renames ef.signature hs.regs hs.mem s.stack.callerSp
  rw [← CallStack.callerSp_rename] at hargs
  rw [Machine.externalStep, Machine.externalStep, h.convention, h.externals, hs.stack]
  generalize m.convention.arguments ef.signature s.regs s.mem s.stack.callerSp = x,
    m.convention.arguments ef.signature s'.regs s'.mem (s.stack.rename ρ).callerSp = x' at hargs
  cases hargs with
  | error e => exact ⟨.error (Stuck.memory e), rfl⟩
  | @ok args args' hrenamed =>
    subst hrenamed
    simp only [h.ignoresBlocks.arguments]
    cases hcall : m.externals.call ef args host with
    | mk outcome? host' =>
      cases outcome? with
      | none => exact ⟨.error (Stuck.externalCallFailed ef.name), rfl⟩
      | some outcome =>
        -- The result is bound on both sides, since it has nothing to rename.
        have hresult := h.ignoresBlocks.result ρ ef args host outcome (by rw [hcall])
        have hregs := hs.regs.set (m.convention.resultRegister ef.signature) outcome.result
        rw [hresult] at hregs
        exact ⟨.ok ⟨rfl, rfl, rfl, hregs, hs.mem⟩, rfl⟩

/-- A step leads to renamed states, with the same events. -/
theorem step (h : m.Renames ρ m') (hs : s.Renames ρ s') (host : σ) :
    Corresponds (Stuck.rename ρ) (Transition.Renames ρ) (m.step s host).1 (m'.step s' host).1 ∧
      (m'.step s' host).2 = (m.step s host).2 := by
  rw [Machine.step, Machine.step, h.env.externalCall? hs]
  cases m.env.externalCall? s with
  | some ef => exact h.externalStep hs ef host
  | none =>
    rw [h.returnAddress]
    exact ⟨(h.env.silentStep h.commutesWith hs).map fun s₁ s₁' hs₁ => ⟨rfl, hs₁⟩, rfl⟩

/-- The end of a run means the same. -/
theorem exitCode (h : m.Renames ρ m') (hs : s.Renames ρ s') :
    Corresponds (Stuck.rename ρ) (fun code code' => code' = code) (m.exitCode s)
      (m'.exitCode s') := by
  rw [Machine.exitCode, Machine.exitCode, hs.isFinal_eq, h.convention, hs.regs]
  split
  · cases s.regs.get (m.convention.resultRegister .main) with
    | int n => exact .ok rfl
    | float x => exact .error (Stuck.badExitValue (.float x))
    | ptr b o => exact .error (Stuck.badExitValue (.ptr b o))
    | undefined => exact .error (Stuck.badExitValue .undefined)
  · exact .ok rfl

end Machine.Renames

/-! ## Runs -/

/-- The behavior in which blocks are renamed: nothing but the reason for being stuck names any. -/
def Behavior.rename (ρ : BlockId → BlockId) : Behavior → Behavior
  | .terminates trace code => .terminates trace code
  | .goesWrong trace reason => .goesWrong trace (reason.rename ρ)
  | .diverges trace => .diverges trace

/-- One status is another one with its blocks renamed. -/
inductive Status.Renames (ρ : BlockId → BlockId) : Status → Status → Prop where
  /-- Both are in a state. -/
  | live {s s' : State} (states : s.Renames ρ s') : Renames ρ (.live s) (.live s')
  /-- Both have failed. -/
  | wrong (reason : Stuck) : Renames ρ (.wrong reason) (.wrong (reason.rename ρ))

/-- One execution is another one with its blocks renamed. -/
structure Execution.Renames (ρ : BlockId → BlockId) (e e' : Execution σ) : Prop where
  /-- The machine is renamed. -/
  machine : e.machine.Renames ρ e'.machine
  /-- The state of external calls is the same. -/
  host : e'.host = e.host
  /-- The status is renamed. -/
  status : e.status.Renames ρ e'.status
  /-- The trace is the same. -/
  trace : e'.trace = e.trace

namespace Execution.Renames

variable {e e' : Execution σ}

/-- Both executions have the same exit code. -/
theorem exitCode (h : e.Renames ρ e') :
    Corresponds (Stuck.rename ρ) (fun code code' => code' = code) e.exitCode e'.exitCode := by
  obtain ⟨machine, host, status, trace, steps⟩ := e
  obtain ⟨machine', host', status', trace', steps'⟩ := e'
  obtain ⟨hmachine, -, hstatus, -⟩ := h
  cases hstatus with
  | live states => exact hmachine.exitCode states
  | wrong reason => exact .ok rfl

/-- A step of both executions has the same events, or fails for the renamed reason, and leaves them
renamed. -/
theorem step (h : e.Renames ρ e') :
    Corresponds (Stuck.rename ρ) (fun events events' => events' = events) e.step.1 e'.step.1 ∧
      e.step.2.Renames ρ e'.step.2 := by
  obtain ⟨machine, host, status, trace, steps⟩ := e
  obtain ⟨machine', host', status', trace', steps'⟩ := e'
  obtain ⟨hmachine, hhost, hstatus, htrace⟩ := h
  simp only at hmachine hhost hstatus htrace
  subst hhost htrace
  cases hstatus with
  | wrong reason => exact ⟨.error reason, ⟨hmachine, rfl, .wrong reason, rfl⟩⟩
  | live states =>
    rename_i s s'
    simp only [Execution.step, states.isFinal_eq]
    split
    · exact ⟨.error Stuck.finished, ⟨hmachine, rfl, .live states, rfl⟩⟩
    · obtain ⟨hresult, hhost⟩ := hmachine.step states host'
      rcases hstep : machine.step s host' with ⟨result, next⟩
      rcases hstep' : machine'.step s' host' with ⟨result', next'⟩
      rw [hstep, hstep'] at hresult hhost
      simp only at hresult hhost
      subst hhost
      cases hresult with
      | error e => exact ⟨.error e, ⟨hmachine, rfl, .wrong e, rfl⟩⟩
      | @ok t t' ht =>
        refine ⟨.ok ht.events, ⟨hmachine, rfl, .live ht.state, ?_⟩⟩
        simp only [ht.events]

/-- Steps keep executions renamed. -/
theorem simulation (ρ : BlockId → BlockId) :
    Simulation (Stuck.rename ρ) fun _ (e e' : Execution σ) => e.Renames ρ e' where
  trace h := h.trace
  exitCode h := h.exitCode
  step h := h.step.1.imp fun _ _ _ => trivial
  next h := h.step.2

/-- Both executions have the same behavior, up to the blocks that a reason for being stuck names. -/
theorem run (h : e.Renames ρ e') (fuel : Nat) : e'.run fuel = (e.run fuel).rename ρ := by
  rw [(simulation ρ).run h]
  cases e.run fuel <;> rfl

end Execution.Renames

end RegisterMachine
