import RegisterMachine.Proofs.Environment.Quieting
import RegisterMachine.Proofs.Machine.Rules
import RegisterMachine.Proofs.Machine.Simulation

/-! # Runs of quieted programs

A machine with a quieted program goes through the same states as one with the program itself, but
for bytes of memory that differ from the beginning, unless it notices: it executes a constant that
quieting changes, or reads one of these bytes. A run that does not notice shows the same.

* `Environment.Notices`, `Machine.Notices`, `Execution.Notices` — what it is to notice.
* `Machine.Quiets`, `State.AgreeOutside` — the two machines, and states of them that correspond.
* `Machine.Quiets.execute`, `Machine.Quiets.step` — steps of both machines.
* `Execution.Quiets.run` — runs of both machines.
-/

namespace RegisterMachine

variable {σ : Type} {D : BlockId → Int → Prop}

/-! ## Noticing -/

/-- Whether an instruction of a function notices that a program has been quieted: it makes a
constant that has changed, or reads a byte that differs. -/
def Environment.Notices (env : Environment) (D : BlockId → Int → Prop) (f : Function) (sp : Value)
    (regs : RegisterFile) (mem : Memory) : Instruction → Prop
  | .op op _ _ => op.quieted ≠ op
  | .getStack slot t _ => sp.SlotMeets D t slot
  | .getParam slot t _ =>
    sp.SlotMeets D .int f.linkSlot ∨
      ∃ callerSp, mem.loadSlot sp .int f.linkSlot = .ok callerSp ∧ callerSp.SlotMeets D t slot
  | .load chunk mode args _ =>
    ∃ a, mode.eval? env sp (regs.getList args) = some a ∧ a.Meets D chunk
  | .tailCall _ | .ret => sp.SlotMeets D .int f.linkSlot ∨ sp.SlotMeets D .int f.returnSlot
  | _ => False

/-- Whether the next step of a machine notices that its program has been quieted. An external call
reads the slots in which it has arguments. -/
def Machine.Notices (m : Machine σ) (D : BlockId → Int → Prop) (s : State) : Prop :=
  match s.control with
  | .running func sp pc =>
    ∃ f i, m.env.internal func = .ok f ∧ f.code[pc]? = some i ∧
      m.env.Notices D f sp s.regs s.mem i
  | .calling callee =>
    ∃ ef slot t, m.env.function? callee = some (.external ef) ∧
      .outgoing slot t ∈ m.convention.locations ef.signature ∧
      s.stack.callerSp.SlotMeets D t (BitVec.ofNat 32 slot)
  | .returning => False

/-- Whether an execution notices within a number of steps that its program has been quieted. -/
def Execution.Notices (D : BlockId → Int → Prop) : (fuel : Nat) → Execution σ → Prop
  | 0, _ => False
  | fuel + 1, e =>
    (∃ s, e.status = .live s ∧ e.machine.Notices D s) ∨ Notices D fuel e.step.2

/-! ## Quieted functions -/

namespace Function

variable (f : Function)

/-- Quieting a function does not move its labels. -/
@[simp] theorem jump_quieted (l : Label) : f.quieted.jump l = f.jump l := by
  have hlabel : ∀ i : Instruction, i.quieted.isLabel l = i.isLabel l := by
    intro i
    cases i <;> rfl
  rw [jump, jump, findLabel?, findLabel?, quieted, Array.findIdx?_map]
  simp only [Function.comp_def, hlabel]

/-- Quieting a function does not change the length of its code. -/
@[simp] theorem size_code_quieted : f.quieted.code.size = f.code.size := by
  rw [quieted, Array.size_map]

end Function

/-- Return addresses that do not look at the constants of a function. -/
def ReturnAddresses.IgnoresConstants (addresses : ReturnAddresses) : Prop :=
  ∀ b f remaining, addresses b f.quieted remaining = addresses b f remaining

/-- Return addresses by position in the code do so. -/
theorem ReturnAddresses.codeOffset_ignoresConstants : codeOffset.IgnoresConstants := by
  intro b f remaining
  rw [codeOffset, codeOffset, Function.size_code_quieted]

/-- The environment of a quieted program: symbols have the same blocks, and blocks identify the same
functions, quieted. -/
structure Environment.Quiets (env env' : Environment) : Prop where
  /-- Symbols have the same blocks. -/
  symbol? : ∀ name, env'.symbol? name = env.symbol? name
  /-- Functions are quieted. -/
  function? : ∀ b, env'.function? b = (env.function? b).map FunctionDef.quieted

namespace Environment.Quiets

variable {env env' : Environment}

/-- Symbols have the same addresses. -/
theorem address? (h : env.Quiets env') (name : String) (offset : Word) :
    env'.address? name offset = env.address? name offset := by
  rw [Environment.address?, Environment.address?, h.symbol?]

/-- The same blocks are functions. -/
theorem isSome_function? (h : env.Quiets env') (b : BlockId) :
    (env'.function? b).isSome = (env.function? b).isSome := by
  rw [h.function?, Option.isSome_map]

/-- A block identifies the quieted function with code, or none for the same reason. -/
theorem internal (h : env.Quiets env') (b : BlockId) :
    Corresponds id (fun f f' => env.internal b = .ok f ∧ f' = f.quieted) (env.internal b)
      (env'.internal b) := by
  unfold Environment.internal
  rw [h.function?]
  rcases env.function? b with _ | f | ef
  · exact .error (Stuck.unknownFunction b)
  · exact .ok ⟨rfl, rfl⟩
  · exact .error (Stuck.notInternal b)

/-- Calls go to the same blocks. -/
theorem resolve (h : env.Quiets env') (regs : RegisterFile) (callee : Callee) :
    env'.resolve regs callee = env.resolve regs callee := by
  have hfunctionAt : ∀ v, env'.functionAt? v = env.functionAt? v := by
    intro v
    unfold Environment.functionAt?
    simp only [h.isSome_function?]
  unfold Environment.resolve
  simp only [hfunctionAt, h.symbol?, h.isSome_function?]

/-- An operation that quieting does not change has the same result. -/
theorem operation_eval? (h : env.Quiets env') {op : Operation} (hop : op.quieted = op) (sp : Value)
    (args : List Value) : op.quieted.eval? env' sp args = op.eval? env sp args := by
  rw [hop]
  unfold Operation.eval?
  simp only [h.address?]

/-- An addressing mode forms the same address. -/
theorem addressing_eval? (h : env.Quiets env') (mode : Addressing) (sp : Value)
    (args : List Value) : mode.eval? env' sp args = mode.eval? env sp args := by
  unfold Addressing.eval?
  simp only [h.address?]

end Environment.Quiets

/-! ## Frames -/

/-- Two states differ in memory at most, and there in a set of bytes at most. -/
structure State.AgreeOutside (D : BlockId → Int → Prop) (s s' : State) : Prop where
  /-- The same is to be done. -/
  control : s'.control = s.control
  /-- The same callers are suspended. -/
  stack : s'.stack = s.stack
  /-- Registers hold the same values. -/
  regs : s'.regs = s.regs
  /-- Memory has the same blocks and bytes. -/
  mem : s.mem.AgreeOutside D s'.mem

/-- Results of memory that correspond do so as results of a step. -/
theorem Corresponds.fault {α β : Type} {R : α → β → Prop} {x : Except MemoryError α}
    {y : Except MemoryError β} (h : Corresponds id R x y) :
    Corresponds id R (x.mapError Stuck.memory) (y.mapError Stuck.memory) :=
  h.mapError fun _ => rfl

namespace Function

variable {mem mem' : Memory} (f : Function) (sp : Value) (stack : CallStack)

/-- A frame is left in the same way if its slots are read from the same bytes. -/
theorem releaseFrame_agreeOutside (h : mem.AgreeOutside D mem')
    (hlink : ¬ sp.SlotMeets D .int f.linkSlot) (hreturn : ¬ sp.SlotMeets D .int f.returnSlot) :
    Corresponds id (Memory.AgreeOutside D) (f.releaseFrame sp stack mem)
      (f.quieted.releaseFrame sp stack mem') := by
  -- The slots and sizes of a frame are those of the function, and quieting keeps them.
  show Corresponds id _ (f.releaseFrame sp stack mem) (f.releaseFrame sp stack mem')
  unfold releaseFrame
  rw [h.loadSlot hlink, h.loadSlot hreturn]
  refine (Corresponds.same _).fault.bind ?_
  rintro link _ rfl
  simp only [ne_eq]
  split
  · exact .error (Stuck.linkMismatch link stack.callerSp)
  refine (Corresponds.same _).fault.bind ?_
  rintro ra _ rfl
  split
  · exact .error (Stuck.returnAddressMismatch ra stack.callerRa)
  cases sp with
  | ptr b o => exact (h.free b _ _).fault
  | int n => exact .error _
  | float x => exact .error _
  | undefined => exact .error _

/-- A frame is entered in the same block. -/
theorem enterFrame_agreeOutside (h : mem.AgreeOutside D mem') :
    Corresponds id (fun r r' => r'.1 = r.1 ∧ r.2.AgreeOutside D r'.2) (f.enterFrame stack mem)
      (f.quieted.enterFrame stack mem') := by
  show Corresponds id _ (f.enterFrame stack mem) (f.enterFrame stack mem')
  simp only [enterFrame, Memory.fst_alloc, h.sameBounds.nextBlock]
  refine ((h.alloc _ _).storeSlot _ .int f.linkSlot _).fault.bind fun m₁ m₁' h₁ => ?_
  refine (h₁.storeSlot _ .int f.returnSlot _).fault.bind fun m₂ m₂' h₂ => ?_
  exact .ok ⟨rfl, h₂⟩

end Function

/-! ## Steps -/

namespace Environment.Quiets

variable {env env' : Environment} {addresses : ReturnAddresses} {mem mem' : Memory} {s s' : State}

/-- An instruction that does not notice has the same effect. -/
theorem execute (h : env.Quiets env') (haddresses : addresses.IgnoresConstants) (f : Function)
    (func : BlockId) (sp : Value) (pc : Nat) (stack : CallStack) (regs : RegisterFile)
    (hmem : mem.AgreeOutside D mem') {i : Instruction} (hi : ¬ env.Notices D f sp regs mem i) :
    Corresponds id (State.AgreeOutside D)
      (env.execute addresses f func sp pc stack regs mem i)
      (env'.execute addresses f.quieted func sp pc stack regs mem' i.quieted) := by
  cases i with
  | label l => exact .ok ⟨rfl, rfl, rfl, hmem⟩
  | getStack slot t dst =>
    simp only [Instruction.quieted, Environment.execute, hmem.loadSlot hi]
    refine (Corresponds.same _).fault.bind ?_
    rintro v _ rfl
    exact .ok ⟨rfl, rfl, rfl, hmem⟩
  | setStack src slot t =>
    refine (hmem.storeSlot sp t slot (regs.get src)).fault.bind fun m₁ m₁' hmem₁ => ?_
    exact .ok ⟨rfl, rfl, rfl, hmem₁⟩
  | getParam slot t dst =>
    obtain ⟨hlink, hparam⟩ := not_or.1 hi
    simp only [Instruction.quieted, Environment.execute]
    have hload : mem'.loadSlot sp .int f.quieted.linkSlot = mem.loadSlot sp .int f.linkSlot :=
      hmem.loadSlot hlink
    rw [hload]
    cases hcaller : mem.loadSlot sp .int f.linkSlot with
    | error e => exact .error _
    | ok callerSp =>
      -- The slot of the parameter is looked up through the link that has been read.
      have hvalue : mem'.loadSlot callerSp t slot = mem.loadSlot callerSp t slot :=
        hmem.loadSlot fun hmeets => hparam ⟨callerSp, hcaller, hmeets⟩
      show Corresponds id _ ((mem.loadSlot callerSp t slot).mapError Stuck.memory >>= _)
        ((mem'.loadSlot callerSp t slot).mapError Stuck.memory >>= _)
      rw [hvalue]
      refine (Corresponds.same _).fault.bind ?_
      rintro v _ rfl
      exact .ok ⟨rfl, rfl, rfl, hmem⟩
  | op op args dst =>
    have hop : op.quieted = op := Classical.not_not.1 hi
    simp only [Instruction.quieted, Environment.execute, h.operation_eval? hop]
    cases op.eval? env sp (regs.getList args) with
    | none =>
      rw [hop]
      exact .error _
    | some v => exact .ok ⟨rfl, rfl, rfl, hmem⟩
  | load chunk mode args dst =>
    simp only [Instruction.quieted, Environment.execute, h.addressing_eval?]
    cases ha : mode.eval? env sp (regs.getList args) with
    | none => exact .error _
    | some a =>
      have hload : mem'.loadAt chunk a = mem.loadAt chunk a :=
        hmem.loadAt fun hmeets => hi ⟨a, ha, hmeets⟩
      simp only [hload]
      refine (Corresponds.same _).fault.bind ?_
      rintro v _ rfl
      exact .ok ⟨rfl, rfl, rfl, hmem⟩
  | store chunk mode args src =>
    simp only [Instruction.quieted, Environment.execute, h.addressing_eval?]
    cases mode.eval? env sp (regs.getList args) with
    | none => exact .error _
    | some a =>
      refine (hmem.storeAt chunk a (regs.get src)).fault.bind fun m₁ m₁' hmem₁ => ?_
      exact .ok ⟨rfl, rfl, rfl, hmem₁⟩
  | call callee =>
    simp only [Instruction.quieted, Environment.execute, h.resolve, Function.size_code_quieted,
      haddresses _ _ _]
    refine (Corresponds.same _).bind ?_
    rintro target _ rfl
    cases addresses func f (f.code.size - (pc + 1)) with
    | none => exact .error _
    | some ra => exact .ok ⟨rfl, rfl, rfl, hmem⟩
  | tailCall callee =>
    obtain ⟨hlink, hreturn⟩ := not_or.1 hi
    simp only [Instruction.quieted, Environment.execute, h.resolve]
    refine (Corresponds.same _).bind ?_
    rintro target _ rfl
    refine (f.releaseFrame_agreeOutside sp stack hmem hlink hreturn).bind fun m₁ m₁' hmem₁ => ?_
    exact .ok ⟨rfl, rfl, rfl, hmem₁⟩
  | goto l =>
    simp only [Instruction.quieted, Environment.execute, Function.jump_quieted]
    refine (Corresponds.same _).bind ?_
    rintro next _ rfl
    exact .ok ⟨rfl, rfl, rfl, hmem⟩
  | cond cond args l =>
    simp only [Instruction.quieted, Environment.execute, Function.jump_quieted]
    cases cond.eval? (regs.getList args) with
    | none => exact .error _
    | some holds =>
      cases holds with
      | false => exact .ok ⟨rfl, rfl, rfl, hmem⟩
      | true =>
        refine (Corresponds.same _).bind ?_
        rintro next _ rfl
        exact .ok ⟨rfl, rfl, rfl, hmem⟩
  | jumpTable arg targets =>
    simp only [Instruction.quieted, Environment.execute, Function.jump_quieted]
    cases regs.get arg with
    | int n =>
      dsimp only
      split
      · exact .error _
      · split
        · refine (Corresponds.same _).bind ?_
          rintro next _ rfl
          exact .ok ⟨rfl, rfl, rfl, hmem⟩
        · exact .error _
    | float x => exact .error _
    | ptr b o => exact .error _
    | undefined => exact .error _
  | ret =>
    obtain ⟨hlink, hreturn⟩ := not_or.1 hi
    refine (f.releaseFrame_agreeOutside sp stack hmem hlink hreturn).bind fun m₁ m₁' hmem₁ => ?_
    exact .ok ⟨rfl, rfl, rfl, hmem₁⟩

/-- A silent step that does not notice has the same effect. -/
theorem silentStep (h : env.Quiets env') (haddresses : addresses.IgnoresConstants)
    (hs : s.AgreeOutside D s')
    (hnotices : ∀ func sp pc f i, s.control = .running func sp pc → env.internal func = .ok f →
      f.code[pc]? = some i → ¬ env.Notices D f sp s.regs s.mem i) :
    Corresponds id (State.AgreeOutside D) (env.silentStep addresses s)
      (env'.silentStep addresses s') := by
  obtain ⟨control, stack, regs, mem⟩ := s
  obtain ⟨control', stack', regs', mem'⟩ := s'
  obtain ⟨rfl, rfl, rfl, hmem⟩ := hs
  -- Only a running state looks at an instruction; the others are told by the kind of a function.
  cases control' with
  | running func sp pc =>
    refine (h.internal func).bind ?_
    rintro f _ ⟨hf, rfl⟩
    have hcode : f.quieted.code[pc]? = f.code[pc]?.map Instruction.quieted := by
      rw [Function.quieted, Array.getElem?_map]
    rw [hcode]
    cases hi : f.code[pc]? with
    | none => exact .error Stuck.endOfCode
    | some i =>
      exact h.execute haddresses f func sp pc stack' regs' hmem
        (hnotices func sp pc f i rfl hf hi)
  | calling callee =>
    simp only [Environment.silentStep, h.function?]
    rcases env.function? callee with _ | f | ef
    · exact .error (Stuck.unknownFunction callee)
    · refine (f.enterFrame_agreeOutside stack' hmem).bind ?_
      rintro ⟨sp, m₁⟩ ⟨sp', m₁'⟩ ⟨hsp, hmem₁⟩
      simp only at hsp
      subst hsp
      exact .ok ⟨rfl, rfl, rfl, hmem₁⟩
    · exact .error (Stuck.externalCallFailed ef.name)
  | returning =>
    cases stack' with
    | nil => exact .error Stuck.finished
    | cons a stack => exact .ok ⟨rfl, rfl, rfl, hmem⟩

/-- The same external function is called. -/
theorem externalCall? (h : env.Quiets env') (hs : s.AgreeOutside D s') :
    env'.externalCall? s' = env.externalCall? s := by
  rw [Environment.externalCall?, Environment.externalCall?, hs.control]
  cases s.control with
  | running func sp pc => rfl
  | calling b =>
    simp only [h.function?]
    rcases env.function? b with _ | f | ef <;> rfl
  | returning => rfl

end Environment.Quiets

/-- The arguments of a call have the same values if none of their slots is noticed. -/
theorem Convention.arguments_agreeOutside (conv : Convention) (sig : Signature)
    (regs : RegisterFile) {mem mem' : Memory} (hmem : mem.AgreeOutside D mem') {callerSp : Value}
    (hslots : ∀ slot t, .outgoing slot t ∈ conv.locations sig →
      ¬ callerSp.SlotMeets D t (BitVec.ofNat 32 slot)) :
    Corresponds id (fun args args' => args = args') (conv.arguments sig regs mem callerSp)
      (conv.arguments sig regs mem' callerSp) := by
  have hargs : Corresponds id (fun args args' => args' = args.map id)
      (conv.arguments sig regs mem callerSp) (conv.arguments sig regs mem' callerSp) := by
    refine Corresponds.mapM fun location hlocation => ?_
    cases location with
    | register r => exact .ok rfl
    | outgoing slot t =>
      simp only [Location.value, hmem.loadSlot (hslots slot t hlocation)]
      exact (Corresponds.same _).imp fun v v' heq => heq.symm
  exact hargs.imp fun args args' heq => by rw [heq, List.map_id]

/-- Two machines differ only in that the program of the second one is quieted. -/
structure Machine.Quiets (m m' : Machine σ) : Prop where
  /-- The environment is that of the quieted program. -/
  env : m.env.Quiets m'.env
  /-- The convention is the same. -/
  convention : m'.convention = m.convention
  /-- Return addresses are the same. -/
  returnAddress : m'.returnAddress = m.returnAddress
  /-- Return addresses do not look at constants. -/
  ignoresConstants : m.returnAddress.IgnoresConstants
  /-- External calls are the same. -/
  externals : m'.externals = m.externals

namespace Machine.Quiets

variable {m m' : Machine σ} {s s' : State}

/-- An external call that does not notice has the same outcome. -/
theorem externalStep (h : m.Quiets m') (hs : s.AgreeOutside D s') {ef : ExternalFunction}
    (hslots : ∀ slot t, .outgoing slot t ∈ m.convention.locations ef.signature →
      ¬ s.stack.callerSp.SlotMeets D t (BitVec.ofNat 32 slot)) (host : σ) :
    Corresponds id (fun t t' => t'.events = t.events ∧ t.state.AgreeOutside D t'.state)
        (m.externalStep ef s host).1 (m'.externalStep ef s' host).1 ∧
      (m'.externalStep ef s' host).2 = (m.externalStep ef s host).2 := by
  have hargs := m.convention.arguments_agreeOutside ef.signature s.regs hs.mem hslots
  rw [Machine.externalStep, Machine.externalStep, h.convention, h.externals, hs.stack, hs.regs]
  generalize m.convention.arguments ef.signature s.regs s.mem s.stack.callerSp = x,
    m.convention.arguments ef.signature s.regs s'.mem s.stack.callerSp = x' at hargs
  cases hargs with
  | error e => exact ⟨.error (Stuck.memory e), rfl⟩
  | @ok args args' heq =>
    subst heq
    dsimp only
    rcases m.externals.call ef args host with ⟨_ | outcome, host'⟩
    · exact ⟨.error (Stuck.externalCallFailed ef.name), rfl⟩
    · exact ⟨.ok ⟨rfl, rfl, rfl, rfl, hs.mem⟩, rfl⟩

/-- A step that does not notice has the same events, and the next states agree. -/
theorem step (h : m.Quiets m') (hs : s.AgreeOutside D s') (hnotices : ¬ m.Notices D s) (host : σ) :
    Corresponds id (fun t t' => t'.events = t.events ∧ t.state.AgreeOutside D t'.state)
        (m.step s host).1 (m'.step s' host).1 ∧
      (m'.step s' host).2 = (m.step s host).2 := by
  rw [Machine.step, Machine.step, h.env.externalCall? hs]
  cases hcall : m.env.externalCall? s with
  | some ef =>
    -- A slot that would be noticed is one of those that the state reads for the arguments.
    obtain ⟨b, hb, hf⟩ := Environment.exists_of_externalCall? hcall
    refine h.externalStep hs (fun slot t hslot hmeets => hnotices ?_) host
    rw [Machine.Notices, hb]
    exact ⟨ef, slot, t, hf, hslot, hmeets⟩
  | none =>
    rw [h.returnAddress]
    refine ⟨(h.env.silentStep h.ignoresConstants hs ?_).map fun s₁ s₁' hs₁ => ⟨rfl, hs₁⟩, rfl⟩
    intro func sp pc f i hcontrol hf hi hnotice
    refine hnotices ?_
    rw [Machine.Notices, hcontrol]
    exact ⟨f, i, hf, hi, hnotice⟩

/-- The end of a run means the same. -/
theorem exitCode (h : m.Quiets m') (hs : s.AgreeOutside D s') : m'.exitCode s' = m.exitCode s := by
  have hfinal : s'.isFinal = s.isFinal := by
    rw [State.isFinal, State.isFinal, hs.control, hs.stack]
  rw [Machine.exitCode, Machine.exitCode, hfinal, h.convention, hs.regs]

end Machine.Quiets

/-! ## Runs -/

/-- Two statuses are failures for the same reason, or states that agree. -/
inductive Status.AgreeOutside (D : BlockId → Int → Prop) : Status → Status → Prop where
  /-- Both are in a state. -/
  | live {s s' : State} (states : s.AgreeOutside D s') : AgreeOutside D (.live s) (.live s')
  /-- Both have failed. -/
  | wrong (reason : Stuck) : AgreeOutside D (.wrong reason) (.wrong reason)

/-- Two executions stand at the same place, the second one that of a quieted program. -/
structure Execution.Quiets (D : BlockId → Int → Prop) (e e' : Execution σ) : Prop where
  /-- The program of the second machine is quieted. -/
  machine : e.machine.Quiets e'.machine
  /-- The state of external calls is the same. -/
  host : e'.host = e.host
  /-- The states agree, or the failures are the same. -/
  status : e.status.AgreeOutside D e'.status
  /-- The trace is the same. -/
  trace : e'.trace = e.trace

namespace Execution.Quiets

variable {e e' : Execution σ}

/-- Both executions have the same exit code. -/
theorem exitCode (h : e.Quiets D e') : e'.exitCode = e.exitCode := by
  obtain ⟨machine, host, status, trace, steps⟩ := e
  obtain ⟨machine', host', status', trace', steps'⟩ := e'
  obtain ⟨hmachine, -, hstatus, -⟩ := h
  cases hstatus with
  | live states => exact hmachine.exitCode states
  | wrong reason => rfl

/-- A step that does not notice has the same events, or fails for the same reason, and the
executions stand at the same place after it. -/
theorem step (h : e.Quiets D e')
    (hnotices : ∀ s, e.status = .live s → ¬ e.machine.Notices D s) :
    Corresponds id (fun events events' => events' = events) e.step.1 e'.step.1 ∧
      e.step.2.Quiets D e'.step.2 := by
  obtain ⟨machine, host, status, trace, steps⟩ := e
  obtain ⟨machine', host', status', trace', steps'⟩ := e'
  obtain ⟨hmachine, hhost, hstatus, htrace⟩ := h
  simp only at hmachine hhost hstatus htrace
  subst hhost htrace
  cases hstatus with
  | wrong reason => exact ⟨.error reason, ⟨hmachine, rfl, .wrong reason, rfl⟩⟩
  | live states =>
    rename_i s s'
    have hfinal : s'.isFinal = s.isFinal := by
      rw [State.isFinal, State.isFinal, states.control, states.stack]
    simp only [Execution.step, hfinal]
    split
    · exact ⟨.error Stuck.finished, ⟨hmachine, rfl, .live states, rfl⟩⟩
    · obtain ⟨hresult, hhost⟩ := hmachine.step states (hnotices s rfl) host'
      rcases hstep : machine.step s host' with ⟨result, next⟩
      rcases hstep' : machine'.step s' host' with ⟨result', next'⟩
      rw [hstep, hstep'] at hresult hhost
      simp only at hresult hhost
      subst hhost
      cases hresult with
      | error e => exact ⟨.error e, ⟨hmachine, rfl, .wrong e, rfl⟩⟩
      | @ok t t' ht =>
        refine ⟨.ok ht.1, ⟨hmachine, rfl, .live ht.2, ?_⟩⟩
        simp only [ht.1]

/-- Executions that do not notice within the steps that are left stand at the same place from step
to step. -/
theorem simulation (D : BlockId → Int → Prop) :
    Simulation id fun fuel (e e' : Execution σ) => e.Quiets D e' ∧ ¬ e.Notices D fuel where
  trace h := h.1.trace
  exitCode h := by
    rw [h.1.exitCode]
    exact (Corresponds.same _).imp fun _ _ heq => heq.symm
  step h := (h.1.step fun s hs hnotice => h.2 (.inl ⟨s, hs, hnotice⟩)).1.imp fun _ _ _ => trivial
  next h := ⟨(h.1.step fun s hs hnotice => h.2 (.inl ⟨s, hs, hnotice⟩)).2,
    fun hnotice => h.2 (.inr hnotice)⟩

/-- An execution that does not notice has the same behavior. -/
theorem run (h : e.Quiets D e') {fuel : Nat} (hnotices : ¬ e.Notices D fuel) :
    e'.run fuel = e.run fuel := by
  rw [(simulation D).run ⟨h, hnotices⟩, Behavior.mapReason_id]

end Execution.Quiets

end RegisterMachine
