import RegisterMachine.Machine.Step
import RegisterMachine.Proofs.Memory.Bounds

/-! # The rules of a step

The transition function as a set of rules, one for each way in which a step can end. Facts about
steps are proved by cases on the rules, so that the transition function is taken apart only here.

* `Executes`, `Refuses` — how an instruction succeeds, and how it fails.
* `Silent`, `Blocked` — the same for every step that is no external call.
* `Machine.Takes`, `Machine.Fails` — the same for all steps of a machine.
* `Machine.step_eq_ok_iff`, `Machine.Fails.of_step` — the rules are those of `Machine.step`.
-/

namespace RegisterMachine

section Execute

variable (env : Environment) (addresses : ReturnAddresses) (f : Function) (func : BlockId)
  (sp : Value) (pc : Nat) (stack : CallStack) (regs : RegisterFile) (mem : Memory)

/-- The ways in which an instruction of function `f` at position `pc` succeeds. -/
inductive Executes : Instruction → State → Prop where
  /-- A label does nothing. -/
  | label {l : Label} : Executes (.label l) ⟨.running func sp (pc + 1), stack, regs, mem⟩
  /-- A slot of the frame is read. -/
  | getStack {slot : Word} {t : DataType} {dst : Register} {v : Value}
      (read : mem.loadSlot sp t slot = .ok v) :
      Executes (.getStack slot t dst) ⟨.running func sp (pc + 1), stack, regs.set dst v, mem⟩
  /-- A slot of the frame is written. -/
  | setStack {src : Register} {slot : Word} {t : DataType} {mem' : Memory}
      (written : mem.storeSlot sp t slot (regs.get src) = .ok mem') :
      Executes (.setStack src slot t) ⟨.running func sp (pc + 1), stack, regs, mem'⟩
  /-- A slot of the frame to which the link slot points is read. -/
  | getParam {slot : Word} {t : DataType} {dst : Register} {callerSp v : Value}
      (link : mem.loadSlot sp .int f.linkSlot = .ok callerSp)
      (read : mem.loadSlot callerSp t slot = .ok v) :
      Executes (.getParam slot t dst) ⟨.running func sp (pc + 1), stack, regs.set dst v, mem⟩
  /-- An operation has a result. -/
  | op {op : Operation} {args : List Register} {dst : Register} {v : Value}
      (result : op.eval? env sp (regs.getList args) = some v) :
      Executes (.op op args dst) ⟨.running func sp (pc + 1), stack, regs.set dst v, mem⟩
  /-- Memory is read at an address. -/
  | load {chunk : Chunk} {mode : Addressing} {args : List Register} {dst : Register} {a v : Value}
      (address : mode.eval? env sp (regs.getList args) = some a)
      (read : mem.loadAt chunk a = .ok v) :
      Executes (.load chunk mode args dst) ⟨.running func sp (pc + 1), stack, regs.set dst v, mem⟩
  /-- Memory is written at an address. -/
  | store {chunk : Chunk} {mode : Addressing} {args : List Register} {src : Register} {a : Value}
      {mem' : Memory} (address : mode.eval? env sp (regs.getList args) = some a)
      (written : mem.storeAt chunk a (regs.get src) = .ok mem') :
      Executes (.store chunk mode args src) ⟨.running func sp (pc + 1), stack, regs, mem'⟩
  /-- The caller is suspended. -/
  | call {callee : Callee} {target : BlockId} {ra : Value}
      (resolved : env.resolve regs callee = .ok target)
      (returns : addresses func f (f.code.size - (pc + 1)) = some ra) :
      Executes (.call callee) ⟨.calling target, ⟨func, sp, ra, pc + 1⟩ :: stack, regs, mem⟩
  /-- The frame is released for the callee. -/
  | tailCall {callee : Callee} {target : BlockId} {mem' : Memory}
      (resolved : env.resolve regs callee = .ok target)
      (released : f.releaseFrame sp stack mem = .ok mem') :
      Executes (.tailCall callee) ⟨.calling target, stack, regs, mem'⟩
  /-- Control goes behind a label. -/
  | goto {l : Label} {next : Nat} (jump : f.jump l = .ok next) :
      Executes (.goto l) ⟨.running func sp next, stack, regs, mem⟩
  /-- A condition holds and control goes behind a label. -/
  | condTaken {cond : Condition} {args : List Register} {l : Label} {next : Nat}
      (holds : cond.eval? (regs.getList args) = some true) (jump : f.jump l = .ok next) :
      Executes (.cond cond args l) ⟨.running func sp next, stack, regs, mem⟩
  /-- A condition does not hold. -/
  | condPassed {cond : Condition} {args : List Register} {l : Label}
      (fails : cond.eval? (regs.getList args) = some false) :
      Executes (.cond cond args l) ⟨.running func sp (pc + 1), stack, regs, mem⟩
  /-- Control goes behind the label at an index. -/
  | jumpTable {arg : Register} {targets : List Label} {n : Word} {l : Label} {next : Nat}
      (index : regs.get arg = .int n) (nonneg : n.msb = false)
      (target : targets[n.toNat]? = some l) (jump : f.jump l = .ok next) :
      Executes (.jumpTable arg targets) ⟨.running func sp next, stack, regs, mem⟩
  /-- The frame is released. -/
  | ret {mem' : Memory} (released : f.releaseFrame sp stack mem = .ok mem') :
      Executes .ret ⟨.returning, stack, regs, mem'⟩

/-- The ways in which an instruction of function `f` at position `pc` fails. -/
inductive Refuses : Instruction → Stuck → Prop where
  /-- A slot of the frame cannot be read. -/
  | getStack {slot : Word} {t : DataType} {dst : Register} {e : MemoryError}
      (read : mem.loadSlot sp t slot = .error e) : Refuses (.getStack slot t dst) (.memory e)
  /-- A slot of the frame cannot be written. -/
  | setStack {src : Register} {slot : Word} {t : DataType} {e : MemoryError}
      (written : mem.storeSlot sp t slot (regs.get src) = .error e) :
      Refuses (.setStack src slot t) (.memory e)
  /-- The link slot cannot be read. -/
  | getParamLink {slot : Word} {t : DataType} {dst : Register} {e : MemoryError}
      (link : mem.loadSlot sp .int f.linkSlot = .error e) :
      Refuses (.getParam slot t dst) (.memory e)
  /-- A slot of the frame to which the link slot points cannot be read. -/
  | getParam {slot : Word} {t : DataType} {dst : Register} {callerSp : Value} {e : MemoryError}
      (link : mem.loadSlot sp .int f.linkSlot = .ok callerSp)
      (read : mem.loadSlot callerSp t slot = .error e) : Refuses (.getParam slot t dst) (.memory e)
  /-- An operation has no result. -/
  | op {op : Operation} {args : List Register} {dst : Register}
      (result : op.eval? env sp (regs.getList args) = none) :
      Refuses (.op op args dst) (.undefinedOperation op.mnemonic)
  /-- No address is formed to read from. -/
  | loadAddress {chunk : Chunk} {mode : Addressing} {args : List Register} {dst : Register}
      (address : mode.eval? env sp (regs.getList args) = none) :
      Refuses (.load chunk mode args dst) (.undefinedAddress mode.mnemonic)
  /-- Memory cannot be read. -/
  | load {chunk : Chunk} {mode : Addressing} {args : List Register} {dst : Register} {a : Value}
      {e : MemoryError} (address : mode.eval? env sp (regs.getList args) = some a)
      (read : mem.loadAt chunk a = .error e) : Refuses (.load chunk mode args dst) (.memory e)
  /-- No address is formed to write to. -/
  | storeAddress {chunk : Chunk} {mode : Addressing} {args : List Register} {src : Register}
      (address : mode.eval? env sp (regs.getList args) = none) :
      Refuses (.store chunk mode args src) (.undefinedAddress mode.mnemonic)
  /-- Memory cannot be written. -/
  | store {chunk : Chunk} {mode : Addressing} {args : List Register} {src : Register} {a : Value}
      {e : MemoryError} (address : mode.eval? env sp (regs.getList args) = some a)
      (written : mem.storeAt chunk a (regs.get src) = .error e) :
      Refuses (.store chunk mode args src) (.memory e)
  /-- A call goes nowhere. -/
  | call {callee : Callee} {e : Stuck} (resolved : env.resolve regs callee = .error e) :
      Refuses (.call callee) e
  /-- A call has no return address. -/
  | callReturn {callee : Callee} {target : BlockId}
      (resolved : env.resolve regs callee = .ok target)
      (returns : addresses func f (f.code.size - (pc + 1)) = none) :
      Refuses (.call callee) .noReturnAddress
  /-- A tail call goes nowhere. -/
  | tailCall {callee : Callee} {e : Stuck} (resolved : env.resolve regs callee = .error e) :
      Refuses (.tailCall callee) e
  /-- The frame cannot be released for the callee. -/
  | tailCallRelease {callee : Callee} {target : BlockId} {e : Stuck}
      (resolved : env.resolve regs callee = .ok target)
      (released : f.releaseFrame sp stack mem = .error e) : Refuses (.tailCall callee) e
  /-- There is no label to go to. -/
  | goto {l : Label} {e : Stuck} (jump : f.jump l = .error e) : Refuses (.goto l) e
  /-- A condition is not defined. -/
  | cond {cond : Condition} {args : List Register} {l : Label}
      (undefined : cond.eval? (regs.getList args) = none) :
      Refuses (.cond cond args l) (.undefinedCondition cond.mnemonic)
  /-- A condition holds but there is no label to go to. -/
  | condJump {cond : Condition} {args : List Register} {l : Label} {e : Stuck}
      (holds : cond.eval? (regs.getList args) = some true) (jump : f.jump l = .error e) :
      Refuses (.cond cond args l) e
  /-- The index of a jump table is no integer, negative or beyond the table. -/
  | jumpIndex {arg : Register} {targets : List Label}
      (index : ∀ n l, regs.get arg = .int n → n.msb = false → targets[n.toNat]? ≠ some l) :
      Refuses (.jumpTable arg targets) (.badJumpIndex (regs.get arg))
  /-- There is no label at the index of a jump table. -/
  | jumpTable {arg : Register} {targets : List Label} {n : Word} {l : Label} {e : Stuck}
      (index : regs.get arg = .int n) (nonneg : n.msb = false)
      (target : targets[n.toNat]? = some l) (jump : f.jump l = .error e) :
      Refuses (.jumpTable arg targets) e
  /-- The frame cannot be released. -/
  | ret {e : Stuck} (released : f.releaseFrame sp stack mem = .error e) : Refuses .ret e

end Execute

variable {env : Environment} {addresses : ReturnAddresses} {f : Function} {func : BlockId}
  {sp : Value} {pc : Nat} {stack : CallStack} {regs : RegisterFile} {mem : Memory}

/-- An instruction succeeds by a rule. -/
theorem Executes.of_execute {i : Instruction} {s' : State}
    (h : env.execute addresses f func sp pc stack regs mem i = .ok s') :
    Executes env addresses f func sp pc stack regs mem i s' := by
  cases i with
  | label l => cases h; exact .label
  | getStack slot t dst =>
    simp only [Environment.execute, bind_eq_ok_iff, mapError_eq_ok_iff] at h
    obtain ⟨v, hv, h⟩ := h
    cases h
    exact .getStack hv
  | setStack src slot t =>
    simp only [Environment.execute, bind_eq_ok_iff, mapError_eq_ok_iff] at h
    obtain ⟨mem', hm, h⟩ := h
    cases h
    exact .setStack hm
  | getParam slot t dst =>
    simp only [Environment.execute, bind_eq_ok_iff, mapError_eq_ok_iff] at h
    obtain ⟨callerSp, hl, v, hv, h⟩ := h
    cases h
    exact .getParam hl hv
  | op op args dst =>
    simp only [Environment.execute] at h
    split at h
    · cases h
      exact .op (by assumption)
    · cases h
  | load chunk mode args dst =>
    simp only [Environment.execute] at h
    split at h
    · simp only [bind_eq_ok_iff, mapError_eq_ok_iff] at h
      obtain ⟨v, hv, h⟩ := h
      cases h
      exact .load (by assumption) hv
    · cases h
  | store chunk mode args src =>
    simp only [Environment.execute] at h
    split at h
    · simp only [bind_eq_ok_iff, mapError_eq_ok_iff] at h
      obtain ⟨mem', hm, h⟩ := h
      cases h
      exact .store (by assumption) hm
    · cases h
  | call callee =>
    simp only [Environment.execute, bind_eq_ok_iff] at h
    obtain ⟨target, ht, h⟩ := h
    split at h
    · cases h
      exact .call ht (by assumption)
    · cases h
  | tailCall callee =>
    simp only [Environment.execute, bind_eq_ok_iff] at h
    obtain ⟨target, ht, mem', hm, h⟩ := h
    cases h
    exact .tailCall ht hm
  | goto l =>
    simp only [Environment.execute, bind_eq_ok_iff] at h
    obtain ⟨next, hn, h⟩ := h
    cases h
    exact .goto hn
  | cond cond args l =>
    simp only [Environment.execute] at h
    split at h
    · simp only [bind_eq_ok_iff] at h
      obtain ⟨next, hn, h⟩ := h
      cases h
      exact .condTaken (by assumption) hn
    · cases h
      exact .condPassed (by assumption)
    · cases h
  | jumpTable arg targets =>
    simp only [Environment.execute] at h
    split at h
    · rename_i n hn
      split at h
      · cases h
      · -- The index is not negative, so it is a position in the table or past its end.
        rename_i hneg
        split at h
        · simp only [bind_eq_ok_iff] at h
          obtain ⟨next, hj, h⟩ := h
          cases h
          exact .jumpTable hn (by simpa using hneg) (by assumption) hj
        · cases h
    · cases h
  | ret =>
    simp only [Environment.execute, bind_eq_ok_iff] at h
    obtain ⟨mem', hm, h⟩ := h
    cases h
    exact .ret hm

/-- What the rules for success allow is what an instruction does. -/
theorem Executes.execute {i : Instruction} {s' : State}
    (h : Executes env addresses f func sp pc stack regs mem i s') :
    env.execute addresses f func sp pc stack regs mem i = .ok s' := by
  cases h <;> simp_all [Environment.execute, bind, Except.bind, pure, Except.pure]

/-- An instruction fails by a rule. -/
theorem Refuses.of_execute {i : Instruction} {e : Stuck}
    (h : env.execute addresses f func sp pc stack regs mem i = .error e) :
    Refuses env addresses f func sp pc stack regs mem i e := by
  cases i with
  | label l => cases h
  | getStack slot t dst =>
    simp only [Environment.execute, bind_eq_error_iff, mapError_eq_error_iff] at h
    rcases h with ⟨e', he, rfl⟩ | ⟨_, _, h⟩
    · exact .getStack he
    · cases h
  | setStack src slot t =>
    simp only [Environment.execute, bind_eq_error_iff, mapError_eq_error_iff] at h
    rcases h with ⟨e', he, rfl⟩ | ⟨_, _, h⟩
    · exact .setStack he
    · cases h
  | getParam slot t dst =>
    simp only [Environment.execute, bind_eq_error_iff, mapError_eq_error_iff,
      mapError_eq_ok_iff] at h
    rcases h with ⟨e', he, rfl⟩ | ⟨callerSp, hl, ⟨e', he, rfl⟩ | ⟨_, _, h⟩⟩
    · exact .getParamLink he
    · exact .getParam hl he
    · cases h
  | op op args dst =>
    simp only [Environment.execute] at h
    split at h
    · cases h
    · cases h
      exact .op (by assumption)
  | load chunk mode args dst =>
    simp only [Environment.execute] at h
    split at h
    · simp only [bind_eq_error_iff, mapError_eq_error_iff] at h
      rcases h with ⟨e', he, rfl⟩ | ⟨_, _, h⟩
      · exact .load (by assumption) he
      · cases h
    · cases h
      exact .loadAddress (by assumption)
  | store chunk mode args src =>
    simp only [Environment.execute] at h
    split at h
    · simp only [bind_eq_error_iff, mapError_eq_error_iff] at h
      rcases h with ⟨e', he, rfl⟩ | ⟨_, _, h⟩
      · exact .store (by assumption) he
      · cases h
    · cases h
      exact .storeAddress (by assumption)
  | call callee =>
    simp only [Environment.execute, bind_eq_error_iff] at h
    rcases h with he | ⟨target, ht, h⟩
    · exact .call he
    · split at h
      · cases h
      · cases h
        exact .callReturn ht (by assumption)
  | tailCall callee =>
    simp only [Environment.execute, bind_eq_error_iff] at h
    rcases h with he | ⟨target, ht, he | ⟨_, _, h⟩⟩
    · exact .tailCall he
    · exact .tailCallRelease ht he
    · cases h
  | goto l =>
    simp only [Environment.execute, bind_eq_error_iff] at h
    rcases h with he | ⟨_, _, h⟩
    · exact .goto he
    · cases h
  | cond cond args l =>
    simp only [Environment.execute] at h
    split at h
    · simp only [bind_eq_error_iff] at h
      rcases h with he | ⟨_, _, h⟩
      · exact .condJump (by assumption) he
      · cases h
    · cases h
    · cases h
      exact .cond (by assumption)
  | jumpTable arg targets =>
    simp only [Environment.execute] at h
    split at h
    · rename_i n hn
      split at h
      · -- The index is negative.
        rename_i hneg
        cases h
        rw [← hn]
        refine .jumpIndex ?_
        intro n' l hn' hpos
        rw [hn] at hn'
        cases hn'
        rw [hpos] at hneg
        cases hneg
      · rename_i hneg
        split at h
        · simp only [bind_eq_error_iff] at h
          rcases h with he | ⟨_, _, h⟩
          · exact .jumpTable hn (by simpa using hneg) (by assumption) he
          · cases h
        · -- The index is past the end of the table.
          rename_i hl
          cases h
          rw [← hn]
          refine .jumpIndex ?_
          intro n' l hn' _ hl'
          rw [hn] at hn'
          cases hn'
          rw [hl] at hl'
          cases hl'
    · -- The index is no integer.
      rename_i hv
      cases h
      exact .jumpIndex fun n l hn => absurd hn (hv n)
  | ret =>
    simp only [Environment.execute, bind_eq_error_iff] at h
    rcases h with he | ⟨_, _, h⟩
    · exact .ret he
    · cases h

/-! ## Silent steps -/

variable (env addresses) in
/-- The ways in which a step that is no external call succeeds. -/
inductive Silent : State → State → Prop where
  /-- An instruction is executed. -/
  | execute {f : Function} {func : BlockId} {sp : Value} {pc : Nat} {stack : CallStack}
      {regs : RegisterFile} {mem : Memory} {i : Instruction} {s' : State}
      (function : env.function? func = some (.internal f)) (fetch : f.code[pc]? = some i)
      (executes : Executes env addresses f func sp pc stack regs mem i s') :
      Silent ⟨.running func sp pc, stack, regs, mem⟩ s'
  /-- A function with code is entered. -/
  | enter {f : Function} {callee : BlockId} {sp : Value} {stack : CallStack} {regs : RegisterFile}
      {mem mem' : Memory} (function : env.function? callee = some (.internal f))
      (entered : f.enterFrame stack mem = .ok (sp, mem')) :
      Silent ⟨.calling callee, stack, regs, mem⟩ ⟨.running callee sp 0, stack, regs, mem'⟩
  /-- The innermost caller goes on. -/
  | resume {a : Activation} {stack : CallStack} {regs : RegisterFile} {mem : Memory} :
      Silent ⟨.returning, a :: stack, regs, mem⟩ ⟨.running a.func a.sp a.pc, stack, regs, mem⟩

variable (env addresses) in
/-- The ways in which a step that is no external call fails. -/
inductive Blocked : State → Stuck → Prop where
  /-- An instruction fails. -/
  | execute {f : Function} {func : BlockId} {sp : Value} {pc : Nat} {stack : CallStack}
      {regs : RegisterFile} {mem : Memory} {i : Instruction} {e : Stuck}
      (function : env.function? func = some (.internal f)) (fetch : f.code[pc]? = some i)
      (refuses : Refuses env addresses f func sp pc stack regs mem i e) :
      Blocked ⟨.running func sp pc, stack, regs, mem⟩ e
  /-- The block of the current function is that of no function with code. -/
  | function {func : BlockId} {sp : Value} {pc : Nat} {stack : CallStack} {regs : RegisterFile}
      {mem : Memory} {e : Stuck} (internal : env.internal func = .error e) :
      Blocked ⟨.running func sp pc, stack, regs, mem⟩ e
  /-- Control has passed the last instruction. -/
  | endOfCode {f : Function} {func : BlockId} {sp : Value} {pc : Nat} {stack : CallStack}
      {regs : RegisterFile} {mem : Memory} (function : env.function? func = some (.internal f))
      (fetch : f.code[pc]? = none) : Blocked ⟨.running func sp pc, stack, regs, mem⟩ .endOfCode
  /-- A function with code cannot be entered. -/
  | enter {f : Function} {callee : BlockId} {stack : CallStack} {regs : RegisterFile} {mem : Memory}
      {e : Stuck} (function : env.function? callee = some (.internal f))
      (entered : f.enterFrame stack mem = .error e) : Blocked ⟨.calling callee, stack, regs, mem⟩ e
  /-- The block of the callee is that of no function. -/
  | callee {callee : BlockId} {stack : CallStack} {regs : RegisterFile} {mem : Memory}
      (function : env.function? callee = none) :
      Blocked ⟨.calling callee, stack, regs, mem⟩ (.unknownFunction callee)
  /-- The outermost function has returned. -/
  | finished {regs : RegisterFile} {mem : Memory} : Blocked ⟨.returning, [], regs, mem⟩ .finished

/-- A function has code if it is one in the environment. -/
theorem Environment.internal_eq_ok_iff {b : BlockId} :
    env.internal b = .ok f ↔ env.function? b = some (.internal f) := by
  unfold internal
  split <;> simp_all

/-- An external function is called where a function without code is to be entered. -/
theorem Environment.exists_of_externalCall? {s : State} {ef : ExternalFunction}
    (h : env.externalCall? s = some ef) :
    ∃ b, s.control = .calling b ∧ env.function? b = some (.external ef) := by
  obtain ⟨control, stack, regs, mem⟩ := s
  cases control with
  | running func sp pc => cases h
  | calling b =>
    simp only [externalCall?] at h
    split at h
    · rename_i hb
      cases h
      exact ⟨b, rfl, hb⟩
    · cases h
  | returning => cases h

/-- A step that is no external call succeeds by a rule. -/
theorem Silent.of_silentStep {s s' : State} (h : env.silentStep addresses s = .ok s') :
    Silent env addresses s s' := by
  obtain ⟨control, stack, regs, mem⟩ := s
  cases control with
  | running func sp pc =>
    simp only [Environment.silentStep, bind_eq_ok_iff, Environment.internal_eq_ok_iff] at h
    obtain ⟨f, hf, h⟩ := h
    split at h
    · exact .execute hf (by assumption) (.of_execute h)
    · cases h
  | calling callee =>
    simp only [Environment.silentStep] at h
    split at h
    · simp only [bind_eq_ok_iff] at h
      obtain ⟨⟨sp, mem'⟩, hm, h⟩ := h
      cases h
      exact .enter (by assumption) hm
    · cases h
    · cases h
  | returning =>
    cases stack with
    | nil => cases h
    | cons a stack => cases h; exact .resume

/-- A step that is no external call fails by a rule. -/
theorem Blocked.of_silentStep {s : State} {e : Stuck} (hs : env.externalCall? s = none)
    (h : env.silentStep addresses s = .error e) : Blocked env addresses s e := by
  obtain ⟨control, stack, regs, mem⟩ := s
  cases control with
  | running func sp pc =>
    simp only [Environment.silentStep, bind_eq_error_iff, Environment.internal_eq_ok_iff] at h
    rcases h with he | ⟨f, hf, h⟩
    · exact .function he
    · split at h
      · exact .execute hf (by assumption) (.of_execute h)
      · cases h
        exact .endOfCode hf (by assumption)
  | calling callee =>
    simp only [Environment.silentStep] at h
    split at h
    · simp only [bind_eq_error_iff] at h
      rcases h with he | ⟨_, _, h⟩
      · exact .enter (by assumption) he
      · cases h
    · -- External calls are no silent steps.
      rename_i hf
      simp [Environment.externalCall?, hf] at hs
    · cases h
      exact .callee (by assumption)
  | returning =>
    cases stack with
    | nil => cases h; exact .finished
    | cons a stack => cases h

/-- No external call is performed where a rule for silent steps applies. -/
theorem Silent.externalCall?_eq_none {s s' : State} (h : Silent env addresses s s') :
    env.externalCall? s = none := by
  cases h with
  | execute => rfl
  | enter hf => simp [Environment.externalCall?, hf]
  | resume => rfl

/-- What the rules for silent steps allow is what a silent step does. -/
theorem Silent.silentStep {s s' : State} (h : Silent env addresses s s') :
    env.silentStep addresses s = .ok s' := by
  cases h with
  | execute hf hi h =>
    simp [Environment.silentStep, Environment.internal_eq_ok_iff.2 hf, hi, bind, Except.bind,
      h.execute]
  | enter hf hm =>
    simp [Environment.silentStep, hf, hm, bind, Except.bind, pure, Except.pure]
  | resume => rfl

/-! ## Steps of a machine -/

variable {σ : Type}

/-- The ways in which a step of a machine succeeds: events, the next state, and the next state of
the external calls. -/
inductive Machine.Takes (m : Machine σ) (s : State) (host : σ) : Transition → σ → Prop where
  /-- A silent step. -/
  | silent {s' : State} (step : Silent m.env m.returnAddress s s') : Takes m s host ⟨[], s'⟩ host
  /-- An external call with an outcome. -/
  | external {ef : ExternalFunction} {args : List Value} {outcome : Outcome} {host' : σ}
      (call : m.env.externalCall? s = some ef)
      (arguments : m.convention.arguments ef.signature s.regs s.mem s.stack.callerSp = .ok args)
      (result : m.externals.call ef args host = (some outcome, host')) :
      Takes m s host
        ⟨outcome.events, ⟨.returning, s.stack,
          s.regs.set (m.convention.resultRegister ef.signature) outcome.result, s.mem⟩⟩ host'

/-- The ways in which a step of a machine fails. -/
inductive Machine.Fails (m : Machine σ) (s : State) (host : σ) : Stuck → Prop where
  /-- A silent step. -/
  | blocked {e : Stuck} (blocked : Blocked m.env m.returnAddress s e) : Fails m s host e
  /-- An argument of an external call cannot be read. -/
  | arguments {ef : ExternalFunction} {e : MemoryError} (call : m.env.externalCall? s = some ef)
      (arguments : m.convention.arguments ef.signature s.regs s.mem s.stack.callerSp = .error e) :
      Fails m s host (.memory e)
  /-- An external call without outcome. -/
  | result {ef : ExternalFunction} {args : List Value} {host' : σ}
      (call : m.env.externalCall? s = some ef)
      (arguments : m.convention.arguments ef.signature s.regs s.mem s.stack.callerSp = .ok args)
      (result : m.externals.call ef args host = (none, host')) :
      Fails m s host (.externalCallFailed ef.name)

namespace Machine

variable {m : Machine σ} {s : State} {host host' : σ} {t : Transition} {e : Stuck}

/-- The steps of a machine that succeed are those of the rules. -/
theorem step_eq_ok_iff : m.step s host = (.ok t, host') ↔ m.Takes s host t host' := by
  constructor
  · intro h
    unfold step at h
    split at h
    · -- An external call succeeds if its arguments can be read and it has an outcome.
      rename_i ef hc
      unfold externalStep at h
      split at h
      · cases h
      · rename_i args ha
        split at h
        · cases h
        · rename_i outcome host' ho
          cases h
          exact .external hc ha ho
    · cases hs : m.env.silentStep m.returnAddress s with
      | error e => simp [hs, Except.map] at h
      | ok s' =>
        simp only [hs, Except.map, Prod.mk.injEq, Except.ok.injEq] at h
        obtain ⟨rfl, rfl⟩ := h
        exact .silent (.of_silentStep hs)
  · intro h
    cases h with
    | silent h => simp [step, h.externalCall?_eq_none, h.silentStep, Except.map]
    | external hc ha ho => simp [step, hc, externalStep, ha, ho]

/-- The steps of a machine fail by a rule. -/
theorem Fails.of_step (h : m.step s host = (.error e, host')) : m.Fails s host e := by
  unfold step at h
  split at h
  · rename_i ef hc
    unfold externalStep at h
    split at h
    · rename_i e ha
      cases h
      exact .arguments hc ha
    · rename_i args ha
      split at h
      · rename_i host' ho
        cases h
        exact .result hc ha ho
      · cases h
  · rename_i hc
    cases hs : m.env.silentStep m.returnAddress s with
    | error e' =>
      simp only [hs, Except.map, Prod.mk.injEq, Except.error.injEq] at h
      obtain ⟨rfl, rfl⟩ := h
      exact .blocked (.of_silentStep hc hs)
    | ok s' => simp [hs, Except.map] at h

end Machine

end RegisterMachine
