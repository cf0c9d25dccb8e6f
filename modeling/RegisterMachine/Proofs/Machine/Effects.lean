import RegisterMachine.Proofs.Machine.Calls
import RegisterMachine.Proofs.Machine.Linkage

/-! # Effects of a step

A step does one thing at a time. It binds one register at most. It writes the bytes of one access,
allocates one block or frees one, if it changes memory at all. And it pushes one record onto the
stack or pops one. Nothing else changes, in any state.

* `Machine.destination?` — the register that a step may change.
* `State.Stores` — the access that a step writes.
* `Memory.Allocates`, `Memory.Frees` — one memory comes of another by a block more or less.
* `MemoryStep` — the four things that a step does to memory.
* `Machine.step_effects` — all that a step changes.
* `Machine.get_of_after?` — registers that no step of a run binds keep their values.
-/

namespace RegisterMachine

variable {σ : Type} {env : Environment} {addresses : ReturnAddresses} {f : Function}
  {func b : BlockId} {sp : Value} {pc : Nat} {stack : CallStack} {regs : RegisterFile}
  {mem mem' : Memory} {i : Instruction} {s s' : State} {m : Machine σ} {host host' : σ}
  {t : Transition} {r : Register}

/-! ## Registers -/

/-- The register that an instruction binds, if it binds one. -/
def Instruction.destination? : Instruction → Option Register
  | .getStack _ _ dst | .getParam _ _ dst | .op _ _ dst | .load _ _ _ dst => some dst
  | .setStack .. | .store .. | .call _ | .tailCall _ | .label _ | .goto _ | .cond .. | .jumpTable ..
  | .ret => none

/-- The register that the next step of a state binds: that of the instruction, or that of the result
where an external function is called. -/
def Machine.destination? (m : Machine σ) (s : State) : Option Register :=
  match m.env.externalCall? s with
  | some ef => some (m.convention.resultRegister ef.signature)
  | none => (s.instruction? m.env).bind Instruction.destination?

/-- An instruction binds its own destination only. -/
theorem Executes.get_eq (h : Executes env addresses f func sp pc stack regs mem i s')
    (hr : i.destination? ≠ some r) : s'.regs.get r = regs.get r := by
  have hset : ∀ {dst : Register} (v : Value), some dst ≠ some r →
      (regs.set dst v).get r = regs.get r := by
    intro dst v hne
    exact RegisterFile.get_set_of_ne regs v fun heq => hne (congrArg some heq)
  cases h with
  | getStack read => exact hset _ hr
  | getParam link read => exact hset _ hr
  | op result => exact hset _ hr
  | load address read => exact hset _ hr
  | label => rfl
  | setStack written => rfl
  | store address written => rfl
  | call resolved returns => rfl
  | tailCall resolved released => rfl
  | goto jump => rfl
  | condTaken holds jump => rfl
  | condPassed fails => rfl
  | jumpTable index nonneg target jump => rfl
  | ret released => rfl

/-- A step binds one register at most. -/
theorem Machine.Takes.get_eq (h : m.Takes s host t host') (hr : m.destination? s ≠ some r) :
    t.state.regs.get r = s.regs.get r := by
  cases h with
  | silent step =>
    cases step with
    | execute function fetch executes =>
      refine executes.get_eq fun heq => hr ?_
      simp only [destination?, Environment.externalCall?, State.instruction?_running function,
        fetch, Option.bind_some, heq]
    | enter function entered => rfl
    | resume => rfl
  | external call arguments result =>
    refine RegisterFile.get_set_of_ne _ _ fun heq => hr ?_
    simp only [destination?, call, heq]

/-! ## Memory -/

/-- The next step of a state stores a register: the chunk, the block and the offset of the access,
and the value. -/
inductive State.Stores (env : Environment) (s : State) :
    Chunk → BlockId → (offset : Int) → Value → Prop where
  /-- Into a slot of the frame. -/
  | setStack {func : BlockId} {sp : Value} {pc : Nat} {src : Register} {slot : Word} {t : DataType}
      {b : BlockId} {o : Word} (control : s.control = .running func sp pc)
      (instr : s.instruction? env = some (.setStack src slot t))
      (address : slotAddress sp slot = .ok (.ptr b o)) :
      Stores env s t.slotChunk b o.toInt (s.regs.get src)
  /-- At an address. -/
  | store {func : BlockId} {sp : Value} {pc : Nat} {chunk : Chunk} {mode : Addressing}
      {args : List Register} {src : Register} {b : BlockId} {o : Word}
      (control : s.control = .running func sp pc)
      (instr : s.instruction? env = some (.store chunk mode args src))
      (address : mode.eval? env sp (s.regs.getList args) = some (.ptr b o)) :
      Stores env s chunk b o.toInt (s.regs.get src)

namespace Memory

/-- One memory comes of another by allocating a block with bounds, of which nothing but the bytes at
some offsets is known. -/
structure Allocates (m m' : Memory) (b : BlockId) (lo hi : Int) (known : Int → Prop) : Prop where
  /-- The block is the next one. -/
  block : b = m.nextBlock
  /-- The block was not there. -/
  fresh : m.isLive b = false
  /-- The number is used. -/
  nextBlock : m'.nextBlock = m.nextBlock + 1
  /-- The block has its bounds, and those of the others are as they were. -/
  bounds : ∀ b', m'.bounds? b' = if b' = b then some (lo, max lo hi) else m.bounds? b'
  /-- Bytes of other blocks are as they were. -/
  others : ∀ b' x, b' ≠ b → m'.cell? b' x = m.cell? b' x
  /-- Other bytes of the block are undefined. -/
  undefined : ∀ x, ¬ known x →
    m'.cell? b x = if lo ≤ x ∧ x < max lo hi then some .undefined else none

/-- One memory comes of another by freeing a block. -/
structure Frees (m m' : Memory) (b : BlockId) : Prop where
  /-- The block was there. -/
  live : m.isLive b = true
  /-- Its number is not used again. -/
  nextBlock : m'.nextBlock = m.nextBlock
  /-- The block has no bounds, and those of the others are as they were. -/
  bounds : ∀ b', m'.bounds? b' = if b' = b then none else m.bounds? b'
  /-- The bytes of the block are gone, and those of the others are as they were. -/
  cells : ∀ b' x, m'.cell? b' x = if b' = b then none else m.cell? b' x

variable {lo hi : Int} {known : Int → Prop}

/-- A block that is freed is freed with its bytes. -/
theorem frees_of_free (h : mem.free b lo hi = .ok mem') : mem.Frees mem' b := by
  refine ⟨?_, nextBlock_of_free h, bounds?_of_free h, fun b' x => cell?_of_free h⟩
  obtain ⟨hbounds, -⟩ := free_eq_ok_iff.1 h
  rw [isLive_eq_isSome_bounds?, hbounds]
  rfl

/-- An allocated block is undefined all over. -/
theorem allocates_alloc (m : Memory) (lo hi : Int) :
    m.Allocates (m.alloc lo hi).2 m.nextBlock lo hi known := by
  refine ⟨rfl, ?_, nextBlock_alloc m lo hi, bounds?_alloc m lo hi, fun b' x hb => ?_,
    fun x _ => ?_⟩
  · rw [← Bool.not_eq_true]
    intro hlive
    exact absurd (lt_nextBlock_of_isLive hlive) (Nat.lt_irrefl _)
  · rw [cell?_alloc, if_neg hb]
  · rw [cell?_alloc, if_pos rfl]

/-- Bytes of the new block that are known may be written in a slot of it. -/
theorem Allocates.storeSlot {m m₁ m₂ : Memory} {o slot : Word} {t : DataType} {v : Value}
    (h : m.Allocates m₁ b lo hi known) (hstore : m₁.storeSlot (.ptr b o) t slot v = .ok m₂)
    (hknown : ∀ x, (o + slot * 4#32).toInt ≤ x →
      x < (o + slot * 4#32).toInt + t.slotChunk.size → known x) :
    m.Allocates m₂ b lo hi known := by
  have hsame := SameBounds.of_storeSlot hstore
  refine ⟨h.block, h.fresh, hsame.nextBlock.trans h.nextBlock, fun b' => ?_, fun b' x hb => ?_,
    fun x hx => ?_⟩
  · rw [hsame.bounds, h.bounds]
  · rw [cell?_of_storeSlot hstore fun heq => absurd heq hb, h.others b' x hb]
  · rw [cell?_of_storeSlot hstore fun _ hin => hx (hknown x hin.1 hin.2), h.undefined x hx]

end Memory

/-- Entering a function allocates its frame, of which the reserved slots are known. -/
theorem Function.allocates_of_enterFrame (h : f.enterFrame stack mem = .ok (sp, mem')) :
    mem.Allocates mem' mem.nextBlock (-f.frameSize).toInt f.stackSize.toInt
      (f.ReservedByte (f.frameSp mem.nextBlock) mem.nextBlock) := by
  obtain ⟨rfl, linked, hlink, hreturn⟩ := enterFrame_eq_ok_iff.1 h
  refine ((Memory.allocates_alloc mem _ _).storeSlot hlink fun x hle hlt => ?_).storeSlot hreturn
    fun x hle hlt => ?_
  · exact ⟨f.linkSlot, _, .inl rfl, slotAddress_ptr _ _ _, hle, hlt⟩
  · exact ⟨f.returnSlot, _, .inr rfl, slotAddress_ptr _ _ _, hle, hlt⟩

/-- Instructions that write memory or release the frame. -/
def Instruction.changesMemory : Instruction → Bool
  | .setStack .. | .store .. | .tailCall _ | .ret => true
  | .getStack .. | .getParam .. | .op .. | .load .. | .call _ | .label _ | .goto _ | .cond ..
  | .jumpTable .. => false

variable (env) in
/-- What a step does to memory. -/
inductive MemoryStep (s s' : State) : Prop where
  /-- A register is stored. Blocks stay as they are, and so do all bytes that are not written. -/
  | write {c : Chunk} {b : BlockId} {offset : Int} {v : Value}
      (stores : s.Stores env c b offset v) (same : s.mem.SameBounds s'.mem)
      (writes : s.mem.Writes s'.mem b offset (c.encode v))
  /-- A function is entered and its frame is allocated. Nothing but its reserved slots is known. -/
  | enter {f : Function} {callee : BlockId} (control : s.control = .calling callee)
      (function : env.function? callee = some (.internal f))
      (allocates : s.mem.Allocates s'.mem s.mem.nextBlock (-f.frameSize).toInt f.stackSize.toInt
        (f.ReservedByte (f.frameSp s.mem.nextBlock) s.mem.nextBlock))
  /-- A function is left and the block of its stack pointer is freed. -/
  | leave {func b : BlockId} {o : Word} {pc : Nat}
      (control : s.control = .running func (.ptr b o) pc)
      (instr : s.instruction? env = some .ret ∨
        ∃ callee, s.instruction? env = some (.tailCall callee))
      (frees : s.mem.Frees s'.mem b)
  /-- Any other step leaves memory as it is. -/
  | keep (instr : ∀ i, s.instruction? env = some i → i.changesMemory = false)
      (control : ∀ callee f, s.control = .calling callee →
        env.function? callee ≠ some (.internal f))
      (mem : s'.mem = s.mem)

namespace MemoryStep

/-- Of all instructions only stores write memory, and only returns and tail calls free a block. -/
theorem of_executes (function : env.function? func = some (.internal f))
    (fetch : f.code[pc]? = some i)
    (h : Executes env addresses f func sp pc stack regs mem i s') :
    MemoryStep env ⟨.running func sp pc, stack, regs, mem⟩ s' := by
  have hinstr : State.instruction? env ⟨.running func sp pc, stack, regs, mem⟩ = some i :=
    (State.instruction?_running function).trans fetch
  have hkeep : i.changesMemory = false → s'.mem = mem →
      MemoryStep env ⟨.running func sp pc, stack, regs, mem⟩ s' := by
    intro hnot hmem
    refine .keep (fun i' hi' => ?_) nofun hmem
    rw [hinstr] at hi'
    cases hi'
    exact hnot
  -- A frame is released with the block of the stack pointer.
  have hleave : (i = .ret ∨ ∃ callee, i = .tailCall callee) →
      f.releaseFrame sp stack mem = .ok s'.mem →
      MemoryStep env ⟨.running func sp pc, stack, regs, mem⟩ s' := by
    intro hi hreleased
    obtain ⟨-, -, b, o, rfl, hfree⟩ := Function.releaseFrame_eq_ok_iff.1 hreleased
    refine .leave rfl ?_ (Memory.frees_of_free hfree)
    rcases hi with rfl | ⟨callee, rfl⟩
    · exact .inl hinstr
    · exact .inr ⟨callee, hinstr⟩
  cases h with
  | setStack written =>
    obtain ⟨b, o, rfl, hstore⟩ := Memory.storeSlot_eq_ok_iff.1 written
    exact .write (.setStack rfl hinstr (slotAddress_ptr _ _ _)) (.of_store hstore)
      (.of_store hstore)
  | store address written =>
    rename_i chunk mode args src a mem'
    cases a with
    | ptr b o =>
      exact .write (.store rfl hinstr address) (.of_store written) (.of_store written)
    | int n => cases written
    | float x => cases written
    | undefined => cases written
  | tailCall resolved released => exact hleave (.inr ⟨_, rfl⟩) released
  | ret released => exact hleave (.inl rfl) released
  | label => exact hkeep rfl rfl
  | getStack read => exact hkeep rfl rfl
  | getParam link read => exact hkeep rfl rfl
  | op result => exact hkeep rfl rfl
  | load address read => exact hkeep rfl rfl
  | call resolved returns => exact hkeep rfl rfl
  | goto jump => exact hkeep rfl rfl
  | condTaken holds jump => exact hkeep rfl rfl
  | condPassed fails => exact hkeep rfl rfl
  | jumpTable index nonneg target jump => exact hkeep rfl rfl

/-- Every step of a machine does one of the four things to memory. -/
theorem of_takes (h : m.Takes s host t host') : MemoryStep m.env s t.state := by
  cases h with
  | silent step =>
    cases step with
    | execute function fetch executes => exact of_executes function fetch executes
    | enter function entered =>
      exact .enter rfl function (Function.allocates_of_enterFrame entered)
    | resume => exact .keep nofun nofun rfl
  | external call arguments result =>
    -- The state is about to call, so that no instruction is next, and the callee has no frame.
    obtain ⟨callee, hcontrol, hexternal⟩ := Environment.exists_of_externalCall? call
    refine .keep (fun i hi => ?_) (fun callee' f hcontrol' hf => ?_) rfl
    · rw [State.instruction?, hcontrol] at hi
      cases hi
    · rw [hcontrol] at hcontrol'
      cases hcontrol'
      rw [hexternal] at hf
      cases hf

end MemoryStep

/-! ## Steps and runs -/

namespace Machine

/-- All that a successful step changes, whatever the state. -/
theorem step_effects (h : m.step s host = (.ok t, host')) :
    (∀ r, m.destination? s ≠ some r → t.state.regs.get r = s.regs.get r) ∧
      MemoryStep m.env s t.state ∧ StackStep m.env m.returnAddress s t.state := by
  have htakes := step_eq_ok_iff.1 h
  exact ⟨fun r hr => htakes.get_eq hr, .of_takes htakes, .of_takes htakes⟩

/-- The second step of the small program binds the register of the seven, and no other. -/
theorem step_effects_printSeven : ∃ (c : Configuration Unit) (t : Transition),
    printSeven.after? ⟨State.printSeven, ()⟩ 1 = some c ∧
    printSeven.step c.state c.host = (.ok t, ()) ∧
    printSeven.destination? c.state = some (.int 0) ∧
    t.state.regs.get (.int 1) = c.state.regs.get (.int 1) ∧
    MemoryStep printSeven.env c.state t.state ∧
    StackStep printSeven.env printSeven.returnAddress c.state t.state := by
  have hstep : ((printSeven.after? ⟨State.printSeven, ()⟩ 1).bind fun c =>
      (printSeven.step c.state c.host).1.toOption.map fun _ => printSeven.destination? c.state) =
      some (some (.int 0)) := by decide +kernel
  simp only [Option.bind_eq_some_iff, Option.map_eq_some_iff] at hstep
  obtain ⟨c, hc, t, ht, hdst⟩ := hstep
  have hok : printSeven.step c.state c.host = (.ok t, ()) :=
    Prod.ext (toOption_eq_some_iff.1 ht) rfl
  obtain ⟨hregs, hmem, hstack⟩ := step_effects hok
  exact ⟨c, t, hc, hok, hdst, hregs (.int 1) (by rw [hdst]; decide), hmem, hstack⟩

/-- A register keeps its value over the steps that do not bind it. -/
theorem get_of_after? {c c' : Configuration σ} {n : Nat} (h : m.after? c n = some c')
    (hr : ∀ k c₁, k < n → m.after? c k = some c₁ → m.destination? c₁.state ≠ some r) :
    c'.state.regs.get r = c.state.regs.get r := by
  induction n generalizing c' with
  | zero =>
    cases h
    rfl
  | succ n ih =>
    obtain ⟨c₁, hc₁, hnext⟩ := after?_succ_eq_some_iff.1 h
    obtain ⟨events, htakes⟩ := next?_eq_some_iff.1 hnext
    rw [htakes.get_eq (hr n c₁ (Nat.lt_succ_self n) hc₁)]
    exact ih hc₁ fun k c₂ hk hc₂ => hr k c₂ (Nat.lt_succ_of_lt hk) hc₂

end Machine

end RegisterMachine
