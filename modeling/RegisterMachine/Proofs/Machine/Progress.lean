import RegisterMachine.Proofs.Check.Accepted
import RegisterMachine.Proofs.Machine.Frames

/-! # Progress of checked programs

A run of a well-formed program can still get stuck, but not in any way that its text rules out.
Control stays within the code of functions, calls by name find a function, and the slots of a frame
can be accessed. What is left are failures that depend on the values at hand.

* `Environment.HasCode`, `State.ControlDiscipline` — control stays within the code.
* `Environment.FrameAt.loadSlot_isOk`, `Environment.FrameAt.storeSlot_isOk` — slots that fit can be
  accessed.
* `Hazard` — the ways in which a checked program can get stuck.
* `Hazard.of_fails` — there are no others.
* `Machine.checked_progress` — what a checked program never gets stuck on.
-/

namespace RegisterMachine

variable {env : Environment} {addresses : ReturnAddresses} {p : Program} {conv : Convention}
  {name : String} {f : Function} {func b : BlockId} {sp : Value} {pc : Nat} {stack : CallStack}
  {regs : RegisterFile} {mem mem₀ : Memory} {i : Instruction} {s s' : State}

/-! ## Slots -/

namespace Environment.FrameAt

variable {slot : Word} {t : DataType}

/-- A slot that fits in a frame can be read. -/
theorem loadSlot_isOk (h : env.FrameAt mem func sp f b) (ha : p.Accepts conv name f)
    (hfit : f.slotFits slot t = true) : ∃ v, mem.loadSlot sp t slot = .ok v := by
  obtain ⟨v, hv⟩ := Memory.load_isOk_iff.2 ⟨_, _, h.bounds, ha.fitsIn_of_slotFits hfit⟩
  exact ⟨v, Memory.loadSlot_eq_ok_iff.2 ⟨b, _, h.sp_eq, hv⟩⟩

/-- A slot that fits in a frame can be written. -/
theorem storeSlot_isOk {v : Value} (h : env.FrameAt mem func sp f b) (ha : p.Accepts conv name f)
    (hfit : f.slotFits slot t = true) : ∃ mem', mem.storeSlot sp t slot v = .ok mem' := by
  obtain ⟨mem', hm⟩ := Memory.store_isOk_iff.2 ⟨_, _, h.bounds, ha.fitsIn_of_slotFits hfit⟩
  exact ⟨mem', Memory.storeSlot_eq_ok_iff.2 ⟨b, _, h.sp_eq, hm⟩⟩

/-- A reserved slot can be read. -/
theorem loadSlot_reserved_isOk (h : env.FrameAt mem func sp f b) (ha : p.Accepts conv name f)
    (hslot : slot = f.linkSlot ∨ slot = f.returnSlot) :
    ∃ v, mem.loadSlot sp .int slot = .ok v := by
  rcases hslot with rfl | rfl
  · exact h.loadSlot_isOk ha ha.link_fits
  · exact h.loadSlot_isOk ha ha.return_fits

/-- Leaving a frame is refused for what the reserved slots hold, not by memory. -/
theorem releaseFrame_ne_memory {e : MemoryError} (h : env.FrameAt mem func sp f b)
    (ha : p.Accepts conv name f) : f.releaseFrame sp stack mem ≠ .error (.memory e) := by
  intro hrelease
  rcases Function.cases_of_releaseFrame_eq_error hrelease with ⟨slot, e', -, hslot, hread⟩ |
    ⟨_, _, heq⟩ | ⟨_, _, heq⟩ | ⟨b', o, e', -, hsp, hfree⟩
  · obtain ⟨v, hv⟩ := h.loadSlot_reserved_isOk ha hslot
    rw [hread] at hv
    cases hv
  · cases heq
  · cases heq
  · -- The block is that of the frame, which can be freed.
    subst hsp
    obtain ⟨mem', hok⟩ := h.free_isOk
    rw [← h.block_eq, hfree] at hok
    cases hok

end Environment.FrameAt

/-- A function that is accepted can be entered. -/
theorem Program.Accepts.enterFrame_isOk (h : p.Accepts conv name f)
    (function : env.function? func = some (.internal f)) :
    ∃ sp mem', f.enterFrame stack mem = .ok (sp, mem') := by
  cases henter : f.enterFrame stack mem with
  | ok r => exact ⟨r.1, r.2, rfl⟩
  | error e =>
    -- The refused slot is one of the reserved slots of a frame that has just been allocated.
    obtain ⟨m, slot, v, e', -, hsame, hslot, hstore⟩ :=
      Function.exists_of_enterFrame_eq_error henter
    have hat : env.FrameAt m func (f.frameSp mem.nextBlock) f mem.nextBlock :=
      ⟨function, rfl, by rw [hsame.bounds, Memory.bounds?_alloc, if_pos rfl]⟩
    have hok : ∃ mem', m.storeSlot (f.frameSp mem.nextBlock) .int slot v = .ok mem' := by
      rcases hslot with rfl | rfl
      · exact hat.storeSlot_isOk h h.link_fits
      · exact hat.storeSlot_isOk h h.return_fits
    obtain ⟨mem', hok⟩ := hok
    rw [hstore] at hok
    cases hok

/-! ## Calls -/

/-- The target of a call is a function. -/
theorem Environment.isSome_function?_of_resolve {callee : Callee}
    (h : env.resolve regs callee = .ok b) : (env.function? b).isSome = true := by
  cases callee with
  | register r =>
    simp only [resolve] at h
    split at h
    · rename_i b' hb
      cases h
      unfold functionAt? at hb
      split at hb
      · split at hb
        · rename_i hfun
          cases hb
          exact hfun.2
        · cases hb
      · cases hb
    · cases h
  | symbol name =>
    simp only [resolve] at h
    split at h
    · cases h
    · split at h
      · rename_i hfun
        cases h
        exact hfun
      · cases h

/-- A call by name in accepted code finds its function. -/
theorem Program.Accepts.resolve_isOk {symbol : String} (h : p.Accepts conv name f)
    (hloads : p.Loads env mem₀) (hi : f.code[pc]? = some i)
    (hcall : i = .call (.symbol symbol) ∨ i = .tailCall (.symbol symbol)) :
    ∃ b, env.resolve regs (.symbol symbol) = .ok b := by
  have hreference : i.reference? = some ⟨symbol, true⟩ := by
    rcases hcall with rfl | rfl <;> rfl
  have hviolations := h.references pc i hi
  simp only [referenceViolations, hreference] at hviolations
  split at hviolations
  · cases hviolations
  · -- The program declares the symbol, and its last declaration is the one that counts.
    rename_i g hg
    have hmem := mem_of_lastGlobal? hg
    cases g with
    | function d =>
      obtain ⟨b, hb, hd⟩ := hloads.function?_symbol?_of_mem hmem
      exact ⟨b, by simp [Environment.resolve, hb, hd]⟩
    | «variable» init => cases hviolations

/-- Every call in accepted code has a return address by position if the code is not too long for
offsets. -/
theorem Program.Accepts.isSome_codeOffset {callee : Callee} (h : p.Accepts conv name f)
    (func : BlockId) (hsize : f.code.size < 2147483648) (hi : f.code[pc]? = some (.call callee)) :
    (ReturnAddresses.codeOffset func f (f.code.size - (pc + 1))).isSome = true := by
  have hlt := h.next_lt hi rfl
  have hoffset : f.code.size - (f.code.size - (pc + 1)) = pc + 1 := by omega
  rw [ReturnAddresses.codeOffset, if_pos (Nat.sub_le _ _), hoffset, Word.ofInt?, if_pos (by omega)]
  rfl

/-! ## Control -/

/-- A block identifies a function with an instruction at a position. -/
def Environment.HasCode (env : Environment) (func : BlockId) (pc : Nat) : Prop :=
  ∃ f, env.function? func = some (.internal f) ∧ pc < f.code.size

/-- Control is within the code of functions, now and wherever a caller goes on. -/
structure State.ControlDiscipline (env : Environment) (s : State) : Prop where
  /-- There is an instruction to execute. -/
  current : ∀ func sp pc, s.control = .running func sp pc → env.HasCode func pc
  /-- What is called is a function. -/
  callee : ∀ b, s.control = .calling b → (env.function? b).isSome = true
  /-- There are instructions with which suspended callers go on. -/
  suspended : ∀ a ∈ s.stack, env.HasCode a.func a.pc

namespace State.ControlDiscipline

/-- Control is within the code while a function runs. -/
theorem of_running (hcode : env.HasCode func pc) (hstack : ∀ a ∈ stack, env.HasCode a.func a.pc) :
    State.ControlDiscipline env ⟨.running func sp pc, stack, regs, mem⟩ := by
  refine ⟨fun func' sp' pc' heq => ?_, fun b heq => ?_, hstack⟩
  · cases heq
    exact hcode
  · cases heq

/-- Control is within the code when a function is called. -/
theorem of_calling (hcallee : (env.function? b).isSome = true)
    (hstack : ∀ a ∈ stack, env.HasCode a.func a.pc) :
    State.ControlDiscipline env ⟨.calling b, stack, regs, mem⟩ := by
  refine ⟨fun func sp pc heq => ?_, fun b' heq => ?_, hstack⟩
  · cases heq
  · cases heq
    exact hcallee

/-- Control is within the code when a function returns. -/
theorem of_returning (hstack : ∀ a ∈ stack, env.HasCode a.func a.pc) :
    State.ControlDiscipline env ⟨.returning, stack, regs, mem⟩ := by
  refine ⟨fun func sp pc heq => ?_, fun b heq => ?_, hstack⟩
  · cases heq
  · cases heq

/-- Instructions of accepted functions keep control within the code. -/
theorem of_executes (ha : p.Accepts conv name f)
    (h : State.ControlDiscipline env ⟨.running func sp pc, stack, regs, mem⟩)
    (function : env.function? func = some (.internal f)) (fetch : f.code[pc]? = some i)
    (executes : Executes env addresses f func sp pc stack regs mem i s') :
    s'.ControlDiscipline env := by
  have hstack := h.suspended
  have hnext : i.endsBlock = false → env.HasCode func (pc + 1) := by
    intro hends
    exact ⟨f, function, ha.next_lt fetch hends⟩
  have hjump : ∀ l next, l ∈ i.targets → f.jump l = .ok next → env.HasCode func next := by
    intro l next hl hok
    obtain ⟨next', hok', hlt⟩ := ha.jump_lt fetch hl
    rw [hok] at hok'
    cases hok'
    exact ⟨f, function, hlt⟩
  cases executes with
  | label => exact of_running (hnext rfl) hstack
  | getStack read => exact of_running (hnext rfl) hstack
  | setStack written => exact of_running (hnext rfl) hstack
  | getParam link read => exact of_running (hnext rfl) hstack
  | op result => exact of_running (hnext rfl) hstack
  | load address read => exact of_running (hnext rfl) hstack
  | store address written => exact of_running (hnext rfl) hstack
  | call resolved returns =>
    refine of_calling (Environment.isSome_function?_of_resolve resolved) ?_
    intro a ha
    rcases List.mem_cons.1 ha with rfl | ha
    · exact hnext rfl
    · exact hstack a ha
  | tailCall resolved released =>
    exact of_calling (Environment.isSome_function?_of_resolve resolved) hstack
  | goto jump => exact of_running (hjump _ _ (by simp [Instruction.targets]) jump) hstack
  | condTaken holds jump => exact of_running (hjump _ _ (by simp [Instruction.targets]) jump) hstack
  | condPassed fails => exact of_running (hnext rfl) hstack
  | jumpTable index nonneg target jump =>
    exact of_running (hjump _ _ (List.mem_of_getElem? target) jump) hstack
  | ret released => exact of_returning hstack

/-- Steps of a well-formed program keep control within the code. -/
theorem of_takes {σ : Type} {m : Machine σ} {host host' : σ} {t : Transition}
    (hwf : p.WellFormed conv) (hloads : p.Loads m.env mem₀) (h : s.ControlDiscipline m.env)
    (htakes : m.Takes s host t host') : t.state.ControlDiscipline m.env := by
  cases htakes with
  | silent step =>
    cases step with
    | execute function fetch executes =>
      obtain ⟨name, ha⟩ := hwf.accepts_of_function? hloads function
      exact h.of_executes ha function fetch executes
    | enter function entered =>
      obtain ⟨name, ha⟩ := hwf.accepts_of_function? hloads function
      exact of_running ⟨_, function, ha.size_pos⟩ h.suspended
    | resume =>
      exact of_running (h.suspended _ (by simp)) fun a ha => h.suspended a (by simp [ha])
  | external call arguments result => exact of_returning h.suspended

/-- A run begins with the call of a function. -/
theorem of_startsAt {σ : Type} {m : Machine σ} (h : p.StartsAt m s) :
    s.ControlDiscipline m.env := by
  obtain ⟨b, -, hfun, heq⟩ := h.eq
  rw [heq]
  exact of_calling hfun (by simp)

/-- Throughout a run of a well-formed program control is within the code. -/
theorem of_reached {σ : Type} {m : Machine σ} {c : Configuration σ} (hwf : p.WellFormed conv)
    (h : m.Reached p c) : c.state.ControlDiscipline m.env := by
  obtain ⟨mem₀, hload⟩ := h.load
  exact h.invariant (fun _ => of_startsAt) fun _ _ _ _ _ hs htakes =>
    hs.of_takes hwf (Program.loads_of_load hload) htakes

end State.ControlDiscipline

/-! ## Hazards -/

/-- The instruction that a state is about to execute. -/
def State.instruction? (env : Environment) (s : State) : Option Instruction :=
  match s.control with
  | .running func _ pc =>
    match env.function? func with
    | some (.internal f) => f.code[pc]?
    | _ => none
  | .calling _ | .returning => none

/-- The instruction at a position of the current function is the one to be executed. -/
theorem State.instruction?_running (function : env.function? func = some (.internal f)) :
    State.instruction? env ⟨.running func sp pc, stack, regs, mem⟩ = f.code[pc]? := by
  simp [instruction?, function]

/-- The next instruction of a running state belongs to a function with code. -/
theorem State.exists_function_of_instruction? (running : s.control = .running func sp pc)
    (instr : s.instruction? env = some i) :
    ∃ f, env.function? func = some (.internal f) ∧ f.code[pc]? = some i := by
  simp only [instruction?, running] at instr
  split at instr
  · exact ⟨_, by assumption, instr⟩
  · cases instr

variable (env) in
/-- The ways in which a state of a checked program can have no successor. Each depends on the values
of registers or memory, or on an external call. -/
inductive Hazard (s : State) : Stuck → Prop where
  /-- An operation is not defined for its arguments. -/
  | operation {op : Operation} {args : List Register} {dst : Register}
      (instr : s.instruction? env = some (.op op args dst)) :
      Hazard s (.undefinedOperation op.mnemonic)
  /-- No address is formed to read from. -/
  | loadAddress {chunk : Chunk} {mode : Addressing} {args : List Register} {dst : Register}
      (instr : s.instruction? env = some (.load chunk mode args dst)) :
      Hazard s (.undefinedAddress mode.mnemonic)
  /-- No address is formed to write to. -/
  | storeAddress {chunk : Chunk} {mode : Addressing} {args : List Register} {src : Register}
      (instr : s.instruction? env = some (.store chunk mode args src)) :
      Hazard s (.undefinedAddress mode.mnemonic)
  /-- Memory cannot be read. -/
  | load {chunk : Chunk} {mode : Addressing} {args : List Register} {dst : Register}
      {e : MemoryError} (instr : s.instruction? env = some (.load chunk mode args dst)) :
      Hazard s (.memory e)
  /-- Memory cannot be written. -/
  | store {chunk : Chunk} {mode : Addressing} {args : List Register} {src : Register}
      {e : MemoryError} (instr : s.instruction? env = some (.store chunk mode args src)) :
      Hazard s (.memory e)
  /-- The slot of a parameter cannot be read. -/
  | param {slot : Word} {t : DataType} {dst : Register} {e : MemoryError}
      (instr : s.instruction? env = some (.getParam slot t dst)) : Hazard s (.memory e)
  /-- The register through which a call goes holds no function pointer. -/
  | callee {r : Register} {v : Value}
      (instr : s.instruction? env = some (.call (.register r)) ∨
        s.instruction? env = some (.tailCall (.register r))) : Hazard s (.notAFunction v)
  /-- A condition is not defined for its arguments. -/
  | condition {cond : Condition} {args : List Register} {l : Label}
      (instr : s.instruction? env = some (.cond cond args l)) :
      Hazard s (.undefinedCondition cond.mnemonic)
  /-- The index of a jump table is no integer within it. -/
  | jumpIndex {arg : Register} {targets : List Label} {v : Value}
      (instr : s.instruction? env = some (.jumpTable arg targets)) : Hazard s (.badJumpIndex v)
  /-- The link slot does not hold the caller's stack pointer. -/
  | link {stored expected : Value}
      (instr : s.instruction? env = some .ret ∨ ∃ t, s.instruction? env = some (.tailCall t)) :
      Hazard s (.linkMismatch stored expected)
  /-- The return-address slot does not hold the caller's return address. -/
  | returnAddress {stored expected : Value}
      (instr : s.instruction? env = some .ret ∨ ∃ t, s.instruction? env = some (.tailCall t)) :
      Hazard s (.returnAddressMismatch stored expected)
  /-- An argument of an external call cannot be read. -/
  | argument {ef : ExternalFunction} {e : MemoryError} (call : env.externalCall? s = some ef) :
      Hazard s (.memory e)
  /-- An external call has no outcome. -/
  | external {ef : ExternalFunction} (call : env.externalCall? s = some ef) :
      Hazard s (.externalCallFailed ef.name)
  /-- The run has ended. -/
  | finished (final : s.isFinal = true) : Hazard s .finished

namespace Hazard

variable {e : Stuck}

/-- In accepted code a call that goes nowhere goes through a register. -/
theorem of_resolve {callee : Callee} (ha : p.Accepts conv name f) (hloads : p.Loads env mem₀)
    (hi : f.code[pc]? = some i) (hcall : i = .call callee ∨ i = .tailCall callee)
    (hinstr : s.instruction? env = some i) (resolved : env.resolve regs callee = .error e) :
    Hazard env s e := by
  cases callee with
  | register r =>
    simp only [Environment.resolve] at resolved
    split at resolved
    · cases resolved
    · cases resolved
      refine .callee (r := r) ?_
      rcases hcall with rfl | rfl
      · exact .inl hinstr
      · exact .inr hinstr
  | symbol symbol =>
    -- A call by name finds its function.
    have hok : ∃ b, env.resolve regs (.symbol symbol) = .ok b := ha.resolve_isOk hloads hi hcall
    obtain ⟨b, hb⟩ := hok
    rw [resolved] at hb
    cases hb

/-- In accepted code a frame that cannot be left has a reserved slot with the wrong contents. -/
theorem of_releaseFrame (ha : p.Accepts conv name f) (hat : env.FrameAt mem func sp f b)
    (hinstr : s.instruction? env = some .ret ∨ ∃ t, s.instruction? env = some (.tailCall t))
    (released : f.releaseFrame sp stack mem = .error e) : Hazard env s e := by
  rcases Function.cases_of_releaseFrame_eq_error released with ⟨slot, e', rfl, -, -⟩ |
    ⟨v, w, rfl⟩ | ⟨v, w, rfl⟩ | ⟨b', o, e', rfl, -, -⟩
  · exact absurd released (hat.releaseFrame_ne_memory ha)
  · exact .link hinstr
  · exact .returnAddress hinstr
  · exact absurd released (hat.releaseFrame_ne_memory ha)

/-- In accepted code an instruction is refused for the values at hand. -/
theorem of_refuses (ha : p.Accepts conv name f) (hloads : p.Loads env mem₀)
    (hsize : f.code.size < 2147483648) (hat : env.FrameAt mem func sp f b)
    (function : env.function? func = some (.internal f)) (fetch : f.code[pc]? = some i)
    (refuses : Refuses env .codeOffset f func sp pc stack regs mem i e) :
    Hazard env ⟨.running func sp pc, stack, regs, mem⟩ e := by
  have hinstr : State.instruction? env ⟨.running func sp pc, stack, regs, mem⟩ = some i :=
    (State.instruction?_running function).trans fetch
  have hjump : ∀ l, l ∈ i.targets → f.jump l ≠ .error e := by
    intro l hl herror
    obtain ⟨next, hok, -⟩ := ha.jump_lt fetch hl
    rw [herror] at hok
    cases hok
  have hslot := ha.slots pc i fetch
  cases refuses with
  | getStack read =>
    -- The slot has been checked to lie within the frame.
    obtain ⟨v, hv⟩ := hat.loadSlot_isOk ha (ite_singleton_eq_nil_iff.1 hslot)
    rw [read] at hv
    cases hv
  | setStack written =>
    obtain ⟨mem', hm⟩ := hat.storeSlot_isOk ha (ite_singleton_eq_nil_iff.1 hslot)
    rw [written] at hm
    cases hm
  | getParamLink link => exact .param hinstr
  | getParam link read => exact .param hinstr
  | op result => exact .operation hinstr
  | loadAddress address => exact .loadAddress hinstr
  | load address read => exact .load hinstr
  | storeAddress address => exact .storeAddress hinstr
  | store address written => exact .store hinstr
  | call resolved => exact of_resolve ha hloads fetch (.inl rfl) hinstr resolved
  | callReturn resolved returns =>
    have hra := ha.isSome_codeOffset func hsize fetch
    rw [returns] at hra
    cases hra
  | tailCall resolved => exact of_resolve ha hloads fetch (.inr rfl) hinstr resolved
  | tailCallRelease resolved released => exact of_releaseFrame ha hat (.inr ⟨_, hinstr⟩) released
  | goto jump => exact absurd jump (hjump _ (by simp [Instruction.targets]))
  | cond undefined => exact .condition hinstr
  | condJump holds jump => exact absurd jump (hjump _ (by simp [Instruction.targets]))
  | jumpIndex index => exact .jumpIndex hinstr
  | jumpTable index nonneg target jump => exact absurd jump (hjump _ (List.mem_of_getElem? target))
  | ret released => exact of_releaseFrame ha hat (.inl hinstr) released

/-- A step of a checked program fails for the values at hand. -/
theorem of_fails {σ : Type} {m : Machine σ} {host : σ} (hwf : p.WellFormed conv)
    (hloads : p.Loads m.env mem₀) (haddresses : m.returnAddress = .codeOffset)
    (hsize : ∀ b f, m.env.function? b = some (.internal f) → f.code.size < 2147483648)
    (hframes : s.FrameDiscipline m.env) (hcontrol : s.ControlDiscipline m.env)
    (fails : m.Fails s host e) : Hazard m.env s e := by
  cases fails with
  | blocked blocked =>
    cases blocked with
    | execute function fetch refuses =>
      rename_i f func sp pc stack regs mem i
      obtain ⟨name, ha⟩ := hwf.accepts_of_function? hloads function
      obtain ⟨b, hat⟩ := hframes.frameAt function
      rw [haddresses] at refuses
      exact of_refuses ha hloads (hsize func f function) hat function fetch refuses
    | function internal =>
      -- The current block is that of a function with code.
      obtain ⟨f, hf, -⟩ := hcontrol.current _ _ _ rfl
      rw [Environment.internal_eq_ok_iff.2 hf] at internal
      cases internal
    | endOfCode function fetch =>
      -- The position is within the code.
      obtain ⟨f, hf, hlt⟩ := hcontrol.current _ _ _ rfl
      rw [function] at hf
      cases hf
      rw [Array.getElem?_eq_getElem hlt] at fetch
      cases fetch
    | enter function entered =>
      obtain ⟨name, ha⟩ := hwf.accepts_of_function? hloads function
      obtain ⟨sp, mem', hok⟩ := ha.enterFrame_isOk function
      rw [entered] at hok
      cases hok
    | callee function =>
      -- What is called is a function.
      have hsome := hcontrol.callee _ rfl
      rw [function] at hsome
      cases hsome
    | finished => exact .finished rfl
  | arguments call arguments => exact .argument call
  | result call arguments result => exact .external call

/-- The failures that the text of a checked program rules out are none of those that are left. -/
theorem ne_of_hazard (h : Hazard env s e) :
    (∀ name, e ≠ .unknownSymbol name) ∧ (∀ b, e ≠ .unknownFunction b) ∧ (∀ b, e ≠ .notInternal b) ∧
      (∀ l, e ≠ .missingLabel l) ∧ e ≠ .endOfCode ∧ e ≠ .noReturnAddress := by
  cases h <;> simp

/-- A call that goes nowhere goes through a register. -/
theorem instruction?_ne_of_notAFunction {v : Value} (h : Hazard env s (.notAFunction v))
    (symbol : String) : s.instruction? env ≠ some (.call (.symbol symbol)) ∧
      s.instruction? env ≠ some (.tailCall (.symbol symbol)) := by
  cases h with
  | callee instr => rcases instr with instr | instr <;> simp [instr]

/-- A function with code can be entered. -/
theorem function?_ne_of_calling (h : Hazard env s e) (hs : s.control = .calling b) :
    env.function? b ≠ some (.internal f) := by
  intro hf
  have hinstr : s.instruction? env = none := by simp [State.instruction?, hs]
  have hcall : env.externalCall? s = none := by simp [Environment.externalCall?, hs, hf]
  have hfinal : s.isFinal = false := by simp [State.isFinal, hs]
  cases h <;> simp_all

/-- Memory does not refuse what an instruction does to its own frame. -/
theorem instruction?_ne_of_memory {e : MemoryError} (h : Hazard env s (.memory e)) :
    s.instruction? env ≠ some .ret ∧ ∀ t, s.instruction? env ≠ some (.tailCall t) := by
  cases h with
  | load instr => simp [instr]
  | store instr => simp [instr]
  | param instr => simp [instr]
  | argument call =>
    obtain ⟨control, stack, regs, mem⟩ := s
    cases control with
    | running func sp pc => cases call
    | calling callee => simp [State.instruction?]
    | returning => cases call

/-- Slots of the current frame can be accessed. -/
theorem instruction?_ne (h : Hazard env s e) :
    (∀ slot t dst, s.instruction? env ≠ some (.getStack slot t dst)) ∧
      ∀ src slot t, s.instruction? env ≠ some (.setStack src slot t) := by
  have hexternal : ∀ ef, env.externalCall? s = some ef → s.instruction? env = none := by
    intro ef hef
    obtain ⟨control, stack, regs, mem⟩ := s
    cases control with
    | running func sp pc => cases hef
    | calling callee => rfl
    | returning => cases hef
  cases h with
  | operation instr => simp [instr]
  | loadAddress instr => simp [instr]
  | storeAddress instr => simp [instr]
  | load instr => simp [instr]
  | store instr => simp [instr]
  | param instr => simp [instr]
  | callee instr => rcases instr with instr | instr <;> simp [instr]
  | condition instr => simp [instr]
  | jumpIndex instr => simp [instr]
  | link instr => rcases instr with instr | ⟨t, instr⟩ <;> simp [instr]
  | returnAddress instr => rcases instr with instr | ⟨t, instr⟩ <;> simp [instr]
  | argument call => simp [hexternal _ call]
  | external call => simp [hexternal _ call]
  | finished final => simp [State.instruction?, (State.isFinal_iff.1 final).1]

end Hazard

/-! ## Progress -/

namespace Machine

variable {σ : Type} {m : Machine σ} {c : Configuration σ} {e : Stuck}

/-- Where a step of a run of a well-formed program fails, it fails for the values at hand. -/
theorem Reached.hazard (h : m.Reached p c) (hwf : p.WellFormed conv)
    (haddresses : m.returnAddress = .codeOffset)
    (hsize : ∀ name f, (name, .function (.internal f)) ∈ p.globals → f.code.size < 2147483648)
    (hstep : (m.step c.state c.host).1 = .error e) : Hazard m.env c.state e := by
  obtain ⟨mem₀, hload⟩ := h.load
  have hloads := Program.loads_of_load hload
  refine Hazard.of_fails hwf hloads haddresses (fun b f hf => ?_) (.of_reached h)
    (.of_reached hwf h) (.of_step (Prod.ext hstep rfl))
  obtain ⟨name, hmem⟩ := hloads.mem_of_function? hf
  exact hsize name f hmem

/-- What a checked program never gets stuck on. In every run of a well-formed program with return
addresses by position and code short enough for them, whatever the external calls:

* no step fails because of a symbol, a function, a label or a return address that is missing, or at
  the end of the code;
* no call by name goes to something that is no function;
* functions with code can be entered;
* slots of the current frame can be read and written;
* memory refuses no frame that is left;
* every suspended caller has an instruction to go on with. -/
theorem checked_progress (hwf : p.WellFormed conv)
    (haddresses : m.returnAddress = .codeOffset)
    (hsize : ∀ name f, (name, .function (.internal f)) ∈ p.globals → f.code.size < 2147483648)
    (h : m.Reached p c) :
    (∀ e, (m.step c.state c.host).1 = .error e →
      (∀ name, e ≠ .unknownSymbol name) ∧ (∀ b, e ≠ .unknownFunction b) ∧
      (∀ b, e ≠ .notInternal b) ∧ (∀ l, e ≠ .missingLabel l) ∧ e ≠ .endOfCode ∧
      e ≠ .noReturnAddress) ∧
    (∀ symbol v, c.state.instruction? m.env = some (.call (.symbol symbol)) ∨
        c.state.instruction? m.env = some (.tailCall (.symbol symbol)) →
      (m.step c.state c.host).1 ≠ .error (.notAFunction v)) ∧
    (∀ b f, c.state.control = .calling b → m.env.function? b = some (.internal f) →
      ∃ t, (m.step c.state c.host).1 = .ok t) ∧
    (∀ slot t dst, c.state.instruction? m.env = some (.getStack slot t dst) →
      ∃ t, (m.step c.state c.host).1 = .ok t) ∧
    (∀ src slot t, c.state.instruction? m.env = some (.setStack src slot t) →
      ∃ t, (m.step c.state c.host).1 = .ok t) ∧
    (∀ e, c.state.instruction? m.env = some .ret ∨
        (∃ t, c.state.instruction? m.env = some (.tailCall t)) →
      (m.step c.state c.host).1 ≠ .error (.memory e)) ∧
    ∀ a ∈ c.state.stack, ∃ f, m.env.function? a.func = some (.internal f) ∧
      a.pc < f.code.size := by
  have hhazard : ∀ e, (m.step c.state c.host).1 = .error e → Hazard m.env c.state e :=
    fun e => h.hazard hwf haddresses hsize
  have hok : (∀ e, ¬ Hazard m.env c.state e) → ∃ t, (m.step c.state c.host).1 = .ok t := by
    intro hnone
    cases hstep : (m.step c.state c.host).1 with
    | ok t => exact ⟨t, rfl⟩
    | error e => exact absurd (hhazard e hstep) (hnone e)
  refine ⟨?_, ?_, ?_, ?_, ?_, ?_, ?_⟩
  · intro e hstep
    exact (hhazard e hstep).ne_of_hazard
  · intro symbol v hinstr hstep
    obtain ⟨hcall, htail⟩ := (hhazard _ hstep).instruction?_ne_of_notAFunction symbol
    exact hinstr.elim hcall htail
  · intro b f hs hf
    exact hok fun e hhazard => hhazard.function?_ne_of_calling hs hf
  · intro slot t dst hinstr
    exact hok fun e hhazard => hhazard.instruction?_ne.1 slot t dst hinstr
  · intro src slot t hinstr
    exact hok fun e hhazard => hhazard.instruction?_ne.2 src slot t hinstr
  · intro e hinstr hstep
    obtain ⟨hret, htail⟩ := (hhazard _ hstep).instruction?_ne_of_memory
    exact hinstr.elim hret fun ⟨t, ht⟩ => htail t ht
  · exact (State.ControlDiscipline.of_reached hwf h).suspended

/-- In `Program.printSeven` the step before the last one leaves the frame of the entry point. It
does not fail in memory. -/
theorem checked_progress_printSeven : ∃ c : Configuration Unit,
    Program.printSeven.WellFormed Machine.printSeven.convention ∧
    Machine.printSeven.returnAddress = .codeOffset ∧
    (∀ name f, (name, .function (.internal f)) ∈ Program.printSeven.globals →
      f.code.size < 2147483648) ∧
    Machine.printSeven.Reached Program.printSeven c ∧
    c.state.instruction? Machine.printSeven.env = some .ret ∧
    ∀ e, (Machine.printSeven.step c.state c.host).1 ≠ .error (.memory e) := by
  have hsome : (Machine.printSeven.after? ⟨State.printSeven, ()⟩ 7).isSome = true := by
    decide +kernel
  obtain ⟨c, hc⟩ := Option.isSome_iff_exists.1 hsome
  have hinstr : (Machine.printSeven.after? ⟨State.printSeven, ()⟩ 7).map
      (fun c => c.state.instruction? Machine.printSeven.env) = some (some .ret) := by
    decide +kernel
  rw [hc, Option.map_some, Option.some.injEq] at hinstr
  have hwf : Program.printSeven.WellFormed Machine.printSeven.convention := by decide +kernel
  have hreached : Machine.printSeven.Reached Program.printSeven c :=
    ⟨State.printSeven, (), 7, Program.startsAt_printSeven, hc⟩
  have hsize : ∀ name f, (name, .function (.internal f)) ∈ Program.printSeven.globals →
      f.code.size < 2147483648 := by
    intro name f hmem
    simp only [Program.printSeven, List.mem_cons, Prod.mk.injEq, Global.function.injEq,
      FunctionDef.internal.injEq, reduceCtorEq, and_false, List.not_mem_nil, or_false] at hmem
    rcases hmem with ⟨-, rfl⟩ | ⟨-, rfl⟩ <;> decide
  have hmain := checked_progress hwf rfl hsize hreached
  exact ⟨c, hwf, rfl, hsize, hreached, hinstr, fun e => hmain.2.2.2.2.2.1 e (.inl hinstr)⟩

end Machine

end RegisterMachine
