import RegisterMachine.Proofs.Evaluation.ResultTypes
import RegisterMachine.Proofs.Machine.Calls
import RegisterMachine.Proofs.Memory.Bytes
import RegisterMachine.Proofs.Renaming.Runs

/-! # Where pointers come from

No step makes a pointer out of something else. The blocks of the pointers in a state were in the
state before, or they are that of the current frame, which its stack pointer names, or those of
globals, which symbols and return addresses name. So all pointers lead to blocks that have been
allocated, and a frame that has just been entered is known to nobody but the function that owns it.

* `Environment.HasBlock` — the blocks of globals.
* `Operation.block?_of_eval?` — a pointer that an operation makes comes from an argument, the stack
  pointer or a symbol.
* `Memory.Holds` — a pointer to a block is stored in memory, maybe in part; what the operations do
  to that.
* `State.Holds`, `State.Knows` — the blocks to which a state holds pointers, and those to which its
  next step can make some.
* `State.Knows.of_takes` — steps do not forge pointers.
* `Machine.PointersTraced`, `Machine.pointers_unforgeable` — all pointers of a run lead to allocated
  blocks, and none to a frame that has just been entered.
-/

namespace RegisterMachine

variable {env : Environment} {addresses : ReturnAddresses} {f : Function} {func b b' : BlockId}
  {sp u v w : Value} {pc : Nat} {stack : CallStack} {regs : RegisterFile} {mem mem' : Memory}
  {i : Instruction} {s s' : State} {args : List Value} {c : Chunk} {t : DataType} {slot : Word}
  {x : Int}

/-! ## Blocks of globals -/

/-- A block is that of a global. -/
def Environment.HasBlock (env : Environment) (b : BlockId) : Prop :=
  0 < b ∧ b ≤ env.globals.size

/-- The block of a symbol is that of a global. -/
theorem Environment.hasBlock_of_symbol? {name : String} (h : env.symbol? name = some b) :
    env.HasBlock b := by
  obtain ⟨i, g, rfl, hi, -⟩ := symbol?_eq_some_iff.1 h
  exact ⟨Nat.succ_pos i, (Array.getElem?_eq_some_iff.1 hi).1⟩

/-- The block of a function is that of a global. -/
theorem Environment.hasBlock_of_function? {d : FunctionDef} (h : env.function? b = some d) :
    env.HasBlock b := by
  obtain ⟨i, name, rfl, hi⟩ := function?_eq_some_iff.1 h
  exact ⟨Nat.succ_pos i, (Array.getElem?_eq_some_iff.1 hi).1⟩

/-- The address of a symbol leads to the block of a global. -/
theorem Environment.hasBlock_of_address? {symbol : String} {offset : Word}
    (h : env.address? symbol offset = some v) (hb : v.block? = some b) : env.HasBlock b := by
  obtain ⟨b', hb', rfl⟩ := Option.map_eq_some_iff.1 h
  cases hb
  exact hasBlock_of_symbol? hb'

/-! ## Results of operations -/

namespace Value

/-- A pointer has the block into which it points. -/
theorem block?_eq_some_iff : v.block? = some b ↔ ∃ o, v = .ptr b o := by
  cases v <;> simp [block?]

/-- A sum that is a pointer leads to the block of one of its parts. -/
theorem block?_of_add (h : v.add w = some u) (hb : u.block? = some b) :
    v.block? = some b ∨ w.block? = some b := by
  unfold add at h
  split at h
  · cases h
    cases hb
  · cases h
    exact .inl hb
  · cases h
    exact .inr hb
  · cases h

/-- A difference that is a pointer leads to the block of the pointer that was moved back. -/
theorem block?_of_sub (h : v.sub w = some u) (hb : u.block? = some b) : v.block? = some b := by
  unfold sub at h
  split at h
  · cases h
    cases hb
  · cases h
    exact hb
  · split at h <;> cases h
    cases hb
  · cases h

/-- An operation on two integers makes no pointers. -/
theorem block?_of_onWords {f : Word → Word → Option Word} (h : onWords f v w = some u) :
    u.block? = none := by
  unfold onWords at h
  split at h
  · obtain ⟨n, -, rfl⟩ := Option.map_eq_some_iff.1 h
    rfl
  · cases h

/-- Doubles are no pointers. -/
theorem block?_of_hasType_float (h : v.HasType .float) : v.block? = none := by
  rcases hasType_float_iff.1 h with ⟨x, rfl⟩ | rfl <;> rfl

end Value

/-- Unary operators make no pointers. -/
theorem UnaryOp.block?_of_apply {op : UnaryOp} (h : op.apply v = some u) : u.block? = none := by
  cases op with
  | negFloat | absFloat | singleOfFloat | floatOfInt | floatOfUnsigned =>
    exact Value.block?_of_hasType_float (UnaryOp.hasType_of_apply h)
  | intOfFloat =>
    simp only [apply, Value.onDouble] at h
    split at h
    · obtain ⟨n, -, rfl⟩ := Option.map_eq_some_iff.1 h
      rfl
    · cases h
  | _ =>
    simp only [apply, Value.onWord] at h
    split at h <;> cases h
    rfl

/-- A pointer that a binary operator makes leads to the block of an argument. -/
theorem BinaryOp.block?_of_apply {op : BinaryOp} (h : op.apply v w = some u)
    (hb : u.block? = some b) : v.block? = some b ∨ w.block? = some b := by
  cases op with
  | add => exact Value.block?_of_add h hb
  | sub => exact .inl (Value.block?_of_sub h hb)
  | addFloat | subFloat | mulFloat | divFloat =>
    have hnone := Value.block?_of_hasType_float (Value.hasType_of_onDoubles h)
    rw [hnone] at hb
    cases hb
  | _ =>
    have hnone := Value.block?_of_onWords h
    rw [hnone] at hb
    cases hb

/-- A pointer that an operator with a constant makes leads to the block of the argument. -/
theorem ImmediateOp.block?_of_apply {op : ImmediateOp} {n : Word} (h : op.apply n v = some u)
    (hb : u.block? = some b) : v.block? = some b := by
  -- The other argument of the binary operator is the constant.
  have harguments : v.block? = some b ∨ (Value.int n).block? = some b := by
    unfold apply at h
    split at h
    case h_2 => exact (BinaryOp.block?_of_apply h hb).symm
    all_goals exact BinaryOp.block?_of_apply h hb
  exact harguments.resolve_right nofun

/-- A pointer that an operation makes leads to the block of an argument, of the stack pointer or of
a global. -/
theorem Operation.block?_of_eval? {op : Operation} (h : op.eval? env sp args = some u)
    (hb : u.block? = some b) :
    (∃ v ∈ args, v.block? = some b) ∨ sp.block? = some b ∨ env.HasBlock b := by
  unfold eval? at h
  split at h
  · cases h
    exact .inl ⟨u, by simp, hb⟩
  · cases h
    cases hb
  · cases h
    cases hb
  · exact .inr (.inr (Environment.hasBlock_of_address? h hb))
  · exact .inr (.inl ((Value.block?_of_add h hb).resolve_right nofun))
  · rw [UnaryOp.block?_of_apply h] at hb
    cases hb
  · rcases BinaryOp.block?_of_apply h hb with hv | hw
    · exact .inl ⟨_, by simp, hv⟩
    · exact .inl ⟨_, by simp, hw⟩
  · exact .inl ⟨_, by simp, ImmediateOp.block?_of_apply h hb⟩
  · -- The outcome of a comparison is zero or one.
    obtain ⟨holds, -, rfl⟩ := Option.map_eq_some_iff.1 h
    cases hb
  · cases h

/-! ## Pointers in memory -/

/-- An access that reads a pointer finds a part of it. -/
theorem Chunk.exists_fragment_of_decode {cells : List Cell}
    (h : (c.decode cells).block? = some b) : ∃ o part, Cell.fragment b o part ∈ cells := by
  obtain ⟨o, hptr⟩ := Value.block?_eq_some_iff.1 h
  obtain ⟨-, rfl⟩ := decode_eq_ptr_iff.1 hptr
  exact ⟨o, 0, List.mem_of_getElem? (Cell.getElem?_fragments b o 0)⟩

/-- Only pointers are stored in parts of pointers. -/
theorem Chunk.block?_of_fragment_mem_encode {o : Word} {part : Fin 4}
    (h : Cell.fragment b o part ∈ c.encode v) : v.block? = some b := by
  obtain ⟨k, hget⟩ := List.getElem?_of_mem h
  obtain ⟨-, rfl, -⟩ := getElem?_encode_eq_fragment_iff.1 hget
  rfl

/-- A byte of memory holds a part of a pointer to a block. -/
def Memory.Holds (m : Memory) (b : BlockId) : Prop :=
  ∃ b' x o part, m.cell? b' x = some (.fragment b o part)

namespace Memory

variable {offset lo hi : Int} {a : Value}

/-- A pointer that is read is stored in memory. -/
theorem holds_of_load (h : mem.load c b' offset = .ok v) (hb : v.block? = some b) :
    mem.Holds b := by
  obtain ⟨-, cells, hlength, hcells, rfl⟩ := load_eq_ok_iff_cells.1 h
  obtain ⟨o, part, hmem⟩ := Chunk.exists_fragment_of_decode hb
  obtain ⟨i, hi, hget⟩ := List.getElem_of_mem hmem
  have hcell := hcells i (by omega)
  rw [List.getElem?_eq_getElem hi, hget] at hcell
  exact ⟨b', _, o, part, hcell⟩

/-- A pointer that is read through a pointer is stored in memory. -/
theorem holds_of_loadAt (h : mem.loadAt c a = .ok v) (hb : v.block? = some b) : mem.Holds b := by
  cases a with
  | ptr b' o => exact holds_of_load h hb
  | int n => cases h
  | float y => cases h
  | undefined => cases h

/-- A pointer that is read from a slot is stored in memory. -/
theorem holds_of_loadSlot (h : mem.loadSlot sp t slot = .ok v) (hb : v.block? = some b) :
    mem.Holds b := by
  obtain ⟨b', o, -, hload⟩ := loadSlot_eq_ok_iff.1 h
  exact holds_of_load hload hb

namespace Holds

/-- A store puts no other pointer into memory than the one that is stored. -/
theorem of_store (h : mem'.Holds b) (hstore : mem.store c b' offset v = .ok mem') :
    mem.Holds b ∨ v.block? = some b := by
  obtain ⟨b₁, x, o, part, hcell⟩ := h
  rw [cell?_of_store hstore] at hcell
  split at hcell
  · exact .inr (Chunk.block?_of_fragment_mem_encode (List.mem_of_getElem? hcell))
  · exact .inl ⟨b₁, x, o, part, hcell⟩

/-- A store through a pointer puts no other pointer into memory than the one that is stored. -/
theorem of_storeAt (h : mem'.Holds b) (hstore : mem.storeAt c a v = .ok mem') :
    mem.Holds b ∨ v.block? = some b := by
  cases a with
  | ptr b' o => exact h.of_store hstore
  | int n => cases hstore
  | float y => cases hstore
  | undefined => cases hstore

/-- A store into a slot puts no other pointer into memory than the one that is stored. -/
theorem of_storeSlot (h : mem'.Holds b) (hstore : mem.storeSlot sp t slot v = .ok mem') :
    mem.Holds b ∨ v.block? = some b := by
  obtain ⟨b', o, -, hstore'⟩ := storeSlot_eq_ok_iff.1 hstore
  exact h.of_store hstore'

/-- There are no pointers in a new block. -/
theorem of_alloc (h : (mem.alloc lo hi).2.Holds b) : mem.Holds b := by
  obtain ⟨b', x, o, part, hcell⟩ := h
  rw [cell?_alloc] at hcell
  split at hcell
  · split at hcell <;> cases hcell
  · exact ⟨b', x, o, part, hcell⟩

/-- Freeing a block puts no pointers into memory. -/
theorem of_free (h : mem'.Holds b) (hfree : mem.free b' lo hi = .ok mem') : mem.Holds b := by
  obtain ⟨b₁, x, o, part, hcell⟩ := h
  rw [cell?_of_free hfree] at hcell
  split at hcell
  · cases hcell
  · exact ⟨b₁, x, o, part, hcell⟩

/-- Entering a frame puts what the record of the caller says into memory. -/
theorem of_enterFrame (h : mem'.Holds b) (hentered : f.enterFrame stack mem = .ok (sp, mem')) :
    mem.Holds b ∨ stack.callerSp.block? = some b ∨ stack.callerRa.block? = some b := by
  obtain ⟨rfl, linked, hlink, hreturn⟩ := Function.enterFrame_eq_ok_iff.1 hentered
  rcases h.of_storeSlot hreturn with h | hra
  · rcases h.of_storeSlot hlink with h | hsp
    · exact .inl h.of_alloc
    · exact .inr (.inl hsp)
  · exact .inr (.inr hra)

/-- Leaving a frame puts no pointers into memory. -/
theorem of_releaseFrame (h : mem'.Holds b) (hreleased : f.releaseFrame sp stack mem = .ok mem') :
    mem.Holds b := by
  obtain ⟨-, -, b', o, -, hfree⟩ := Function.releaseFrame_eq_ok_iff.1 hreleased
  exact h.of_free hfree

/-- There are no pointers in blocks that have just been allocated for globals. -/
theorem of_allocate {gs : List (String × Global)} {taken : List String} (h : mem'.Holds b)
    (hallocate : Environment.allocate mem taken gs = .ok mem') : mem.Holds b := by
  induction gs generalizing mem taken with
  | nil =>
    cases hallocate
    exact h
  | cons g gs ih =>
    obtain ⟨-, size, -, hrest⟩ := Environment.allocate_cons_eq_ok_iff.1 hallocate
    exact (ih hrest).of_alloc

/-- The pointers in the memory of a loaded program lead to globals. -/
theorem hasBlock_of_load {p : Program} (h : mem.Holds b) (hload : p.load = .ok (env, mem)) :
    env.HasBlock b := by
  obtain ⟨rfl, m, hm, hfill⟩ := Program.load_eq_ok_iff.1 hload
  -- Nothing is known of the blocks that have been allocated, and only addresses are stored.
  refine Environment.fillVariables_invariant
    (P := fun m => ∀ b, m.Holds b → p.environment.HasBlock b)
    (fun m c b' offset v m' hv hm hstore b hb => ?_) (fun b hb => ?_) hfill b h
  · rcases hb.of_store hstore with hb | hb
    · exact hm b hb
    · obtain ⟨o, rfl⟩ := Value.block?_eq_some_iff.1 hb
      obtain ⟨name, hname⟩ := hv b o rfl
      exact Environment.hasBlock_of_symbol? hname
  · obtain ⟨b', x, o, part, hcell⟩ := hb.of_allocate hm
    simp [cell?] at hcell

end Holds

end Memory

/-! ## What a step does to pointers -/

/-- A state holds a pointer to a block: in a register, in the record of a suspended caller, or in
memory. -/
inductive State.Holds (s : State) (b : BlockId) : Prop where
  /-- A register holds the pointer. -/
  | register {r : Register} (value : (s.regs.get r).block? = some b)
  /-- The pointer is the stack pointer of a suspended caller. -/
  | stackPointer {a : Activation} (mem : a ∈ s.stack) (value : a.sp.block? = some b)
  /-- The pointer is the return address of a suspended caller. -/
  | returnAddress {a : Activation} (mem : a ∈ s.stack) (value : a.ra.block? = some b)
  /-- The pointer is in memory, maybe in part. -/
  | memory (cell : s.mem.Holds b)

/-- The blocks to which the next step can make pointers: the state holds a pointer there, or it is
the current frame or a global. -/
inductive State.Knows (env : Environment) (s : State) (b : BlockId) : Prop where
  /-- The state holds a pointer to the block. -/
  | held (holds : s.Holds b)
  /-- The stack pointer leads to the block. -/
  | frame {func : BlockId} {sp : Value} {pc : Nat} (control : s.control = .running func sp pc)
      (value : sp.block? = some b)
  /-- The block is that of a global. -/
  | global (block : env.HasBlock b)

namespace State.Knows

variable {control control' : Control} {r : Register}

/-- Where only memory changes, pointers in memory are to be traced. -/
theorem of_mem (h : State.Holds ⟨control', stack, regs, mem'⟩ b)
    (memory : mem'.Holds b → State.Knows env ⟨control, stack, regs, mem⟩ b) :
    State.Knows env ⟨control, stack, regs, mem⟩ b := by
  cases h with
  | register value => exact .held (.register value)
  | stackPointer mem value => exact .held (.stackPointer mem value)
  | returnAddress mem value => exact .held (.returnAddress mem value)
  | memory cell => exact memory cell

/-- Where only the control changes, no pointers are to be traced. -/
theorem of_control (h : State.Holds ⟨control', stack, regs, mem⟩ b) :
    State.Knows env ⟨control, stack, regs, mem⟩ b :=
  of_mem h fun cell => .held (.memory cell)

/-- Where only a register changes, its value is to be traced. -/
theorem of_set (h : State.Holds ⟨control', stack, regs.set r v, mem⟩ b)
    (value : v.block? = some b → State.Knows env ⟨control, stack, regs, mem⟩ b) :
    State.Knows env ⟨control, stack, regs, mem⟩ b := by
  cases h with
  | @register r' hr =>
    by_cases heq : r = r'
    · subst heq
      rw [RegisterFile.get_set_self] at hr
      exact value hr
    · rw [RegisterFile.get_set_of_ne regs v heq] at hr
      exact .held (.register hr)
  | stackPointer mem value => exact .held (.stackPointer mem value)
  | returnAddress mem value => exact .held (.returnAddress mem value)
  | memory cell => exact .held (.memory cell)

/-- The stack pointer and the return address of the innermost caller come from its record. -/
theorem of_caller
    (h : stack.callerSp.block? = some b ∨ stack.callerRa.block? = some b) :
    State.Knows env ⟨control, stack, regs, mem⟩ b := by
  cases stack with
  | nil => rcases h with h | h <;> cases h
  | cons a stack =>
    rcases h with h | h
    · exact .held (.stackPointer (List.mem_cons_self ..) h)
    · exact .held (.returnAddress (List.mem_cons_self ..) h)

/-- Instructions do not forge pointers. -/
theorem of_executes (h : s'.Holds b) (function : env.function? func = some (.internal f))
    (fetch : f.code[pc]? = some i)
    (executes : Executes env .codeOffset f func sp pc stack regs mem i s') :
    State.Knows env ⟨.running func sp pc, stack, regs, mem⟩ b := by
  have hregister : ∀ r, (regs.get r).block? = some b →
      State.Knows env ⟨.running func sp pc, stack, regs, mem⟩ b :=
    fun r value => .held (.register value)
  have hmemory : mem.Holds b → State.Knows env ⟨.running func sp pc, stack, regs, mem⟩ b :=
    fun cell => .held (.memory cell)
  cases executes with
  | label => exact of_control h
  | getStack read =>
    exact of_set h fun value => hmemory (Memory.holds_of_loadSlot read value)
  | setStack written =>
    exact of_mem h fun cell => (cell.of_storeSlot written).elim hmemory (hregister _)
  | getParam link read =>
    exact of_set h fun value => hmemory (Memory.holds_of_loadSlot read value)
  | op result =>
    refine of_set h fun value => ?_
    rcases Operation.block?_of_eval? result value with ⟨v, hv, value⟩ | value | hglobal
    · obtain ⟨r, -, rfl⟩ := List.mem_map.1 hv
      exact hregister r value
    · exact .frame rfl value
    · exact .global hglobal
  | load address read =>
    exact of_set h fun value => hmemory (Memory.holds_of_loadAt read value)
  | store address written =>
    exact of_mem h fun cell => (cell.of_storeAt written).elim hmemory (hregister _)
  | call resolved returns =>
    -- The new record holds the stack pointer of the caller and a place in its code.
    obtain ⟨o, rfl, -⟩ := ReturnAddresses.codeOffset_eq_some fetch returns
    cases h with
    | register value => exact hregister _ value
    | stackPointer mem value =>
      rcases List.mem_cons.1 mem with rfl | mem
      · exact .frame rfl value
      · exact .held (.stackPointer mem value)
    | returnAddress mem value =>
      rcases List.mem_cons.1 mem with rfl | mem
      · cases value
        exact .global (Environment.hasBlock_of_function? function)
      · exact .held (.returnAddress mem value)
    | memory cell => exact hmemory cell
  | tailCall resolved released => exact of_mem h fun cell => hmemory (cell.of_releaseFrame released)
  | goto jump => exact of_control h
  | condTaken holds jump => exact of_control h
  | condPassed fails => exact of_control h
  | jumpTable index nonneg target jump => exact of_control h
  | ret released => exact of_mem h fun cell => hmemory (cell.of_releaseFrame released)

/-- Steps do not forge pointers: where a step leads to a state that holds a pointer to a block, the
block was known before. -/
theorem of_takes {σ : Type} {m : Machine σ} {host host' : σ} {t : Transition}
    (haddresses : m.returnAddress = .codeOffset) (hexternals : m.externals.IgnoresBlocks)
    (h : t.state.Holds b) (htakes : m.Takes s host t host') : s.Knows m.env b := by
  cases htakes with
  | silent step =>
    rw [haddresses] at step
    cases step with
    | execute function fetch executes => exact of_executes h function fetch executes
    | enter function entered =>
      refine of_mem h fun cell => ?_
      rcases cell.of_enterFrame entered with cell | caller
      · exact .held (.memory cell)
      · exact of_caller caller
    | resume =>
      cases h with
      | register value => exact .held (.register value)
      | stackPointer mem value => exact .held (.stackPointer (List.mem_cons_of_mem _ mem) value)
      | returnAddress mem value =>
        exact .held (.returnAddress (List.mem_cons_of_mem _ mem) value)
      | memory cell => exact .held (.memory cell)
  | external call arguments result =>
    refine of_set h fun value => ?_
    -- A result that no renaming of blocks changes is no pointer.
    obtain ⟨o, ho⟩ := Value.block?_eq_some_iff.1 value
    have hfixed := hexternals.result Nat.succ _ _ _ _ (congrArg Prod.fst result)
    rw [ho, Value.rename_ptr, Value.ptr.injEq] at hfixed
    exact absurd hfixed.1 (Nat.succ_ne_self b)

end State.Knows

/-! ## Runs -/

namespace Machine

variable {σ : Type} {m : Machine σ} {p : Program} {c c' : Configuration σ}

/-- The state in which a run begins holds pointers to globals only. -/
theorem hasBlock_of_startsAt (hstart : p.StartsAt m s) (h : s.Holds b) : m.env.HasBlock b := by
  obtain ⟨callee, -, -, heq⟩ := hstart.eq
  rw [heq] at h
  cases h with
  | register value =>
    rw [RegisterFile.get_empty] at value
    cases value
  | stackPointer mem value => cases mem
  | returnAddress mem value => cases mem
  | memory cell => exact cell.hasBlock_of_load hstart.load

/-- All blocks that a state of a run knows have been allocated, if those to which it holds pointers
have. -/
theorem Reached.lt_nextBlock_of_knows (h : m.Reached p c)
    (hheld : c.state.Holds b → 0 < b ∧ b < c.state.mem.nextBlock) (hb : c.state.Knows m.env b) :
    0 < b ∧ b < c.state.mem.nextBlock := by
  have hdiscipline := State.FrameDiscipline.of_reached h
  cases hb with
  | held holds => exact hheld holds
  | @frame func sp pc control value =>
    obtain ⟨f, b', hat⟩ := hdiscipline.framed (func, sp) (by simp [State.frames, control])
    obtain rfl : b' = b := Option.some.inj (hat.block?_eq.symm.trans value)
    exact ⟨Memory.pos_of_isLive hat.isLive, Memory.lt_nextBlock_of_isLive hat.isLive⟩
  | global block => exact ⟨block.1, Nat.lt_of_le_of_lt block.2 hdiscipline.globals_lt⟩

/-- All pointers that the states of a run hold lead to blocks that have been allocated. -/
theorem Reached.lt_nextBlock_of_holds (haddresses : m.returnAddress = .codeOffset)
    (hexternals : m.externals.IgnoresBlocks) (h : m.Reached p c) (hb : c.state.Holds b) :
    0 < b ∧ b < c.state.mem.nextBlock := by
  revert b
  refine h.invariant (I := fun s => ∀ {b}, s.Holds b → 0 < b ∧ b < s.mem.nextBlock)
    (fun s hstart b hb => ?_) fun s host t host' hreached hs htakes b hb => ?_
  · have hblock := hasBlock_of_startsAt hstart hb
    exact ⟨hblock.1,
      Nat.lt_of_le_of_lt hblock.2 (State.FrameDiscipline.of_startsAt hstart).globals_lt⟩
  · have hknown := State.Knows.of_takes haddresses hexternals hb htakes
    obtain ⟨hpos, hlt⟩ := hreached.lt_nextBlock_of_knows hs hknown
    exact ⟨hpos, Nat.lt_of_lt_of_le hlt (FrameStep.of_takes htakes).nextBlock_le⟩

/-- All pointers in a state have a place from which they come. -/
structure PointersTraced (m : Machine σ) (c : Configuration σ) : Prop where
  /-- A pointer that the state holds leads to a block that has been allocated. -/
  allocated : ∀ b, c.state.Holds b → 1 ≤ b ∧ b < c.state.mem.nextBlock
  /-- A function that is entered gets the next block for its frame. Nothing else in the state that
  is reached names this block: it holds no pointer there, and it is the block of no function. -/
  entered : ∀ callee f c', c.state.control = .calling callee →
    m.env.function? callee = some (.internal f) → m.next? c = some c' →
    c'.state.control = .running callee (f.frameSp c.state.mem.nextBlock) 0 ∧
      ¬ c'.state.Holds c.state.mem.nextBlock ∧ callee ≠ c.state.mem.nextBlock ∧
      ∀ a ∈ c'.state.stack, a.func ≠ c.state.mem.nextBlock

/-- Entering a function puts the machine at its first instruction, with the stack pointer of the
next block and the callers as before. -/
theorem eq_of_next?_of_calling {callee : BlockId} (hcontrol : c.state.control = .calling callee)
    (function : m.env.function? callee = some (.internal f)) (h : m.next? c = some c') :
    c'.state.control = .running callee (f.frameSp c.state.mem.nextBlock) 0 ∧
      c'.state.stack = c.state.stack := by
  obtain ⟨⟨control, stack, regs, mem⟩, host⟩ := c
  obtain ⟨⟨control', stack', regs', mem'⟩, host'⟩ := c'
  simp only at hcontrol
  subst hcontrol
  obtain ⟨events, htakes⟩ := next?_eq_some_iff.1 h
  cases htakes with
  | silent step =>
    cases step with
    | enter function' entered =>
      obtain ⟨rfl, -⟩ := Function.enterFrame_eq_ok_iff.1 entered
      rw [function, Option.some.injEq, FunctionDef.internal.injEq] at function'
      subst function'
      exact ⟨rfl, rfl⟩
  | external call arguments result => simp [Environment.externalCall?, function] at call

/-- On a machine with return addresses by position and external calls to which blocks mean nothing
all pointers are traced. -/
theorem Reached.pointersTraced (haddresses : m.returnAddress = .codeOffset)
    (hexternals : m.externals.IgnoresBlocks) (h : m.Reached p c) : m.PointersTraced c := by
  have hheld : ∀ {b}, c.state.Holds b → 0 < b ∧ b < c.state.mem.nextBlock :=
    h.lt_nextBlock_of_holds haddresses hexternals
  have hglobals := (State.FrameDiscipline.of_reached h).globals_lt
  have hglobal : ∀ {b d}, m.env.function? b = some d → b ≠ c.state.mem.nextBlock := by
    intro b d hd
    exact Nat.ne_of_lt (Nat.lt_of_le_of_lt (Environment.hasBlock_of_function? hd).2 hglobals)
  refine ⟨fun b => hheld, fun callee f c' hcontrol function hnext => ?_⟩
  obtain ⟨hcontrol', hstack⟩ := eq_of_next?_of_calling hcontrol function hnext
  refine ⟨hcontrol', fun hholds => ?_, hglobal function, fun a ha => ?_⟩
  · -- What the new state holds was known before, and the next block was not.
    obtain ⟨events, htakes⟩ := next?_eq_some_iff.1 hnext
    have hknown := State.Knows.of_takes haddresses hexternals hholds htakes
    exact Nat.lt_irrefl _ (h.lt_nextBlock_of_knows hheld hknown).2
  · rw [hstack] at ha
    obtain ⟨pc, f', callee', -, hfunction, -⟩ := h.atCall a ha
    exact hglobal hfunction

/-- Pointers cannot be forged. In every run of a program, whatever the convention, with return
addresses by position and with the host primitives or with results fixed in advance, every pointer
in a register, in the record of a suspended caller or in a byte of memory leads to a block that has
been allocated. So when a function is entered, nothing but its stack pointer leads to its frame. -/
theorem pointers_unforgeable (env : Environment) (conv : Convention) (p : Program) :
    (∀ c, Reached ⟨env, conv, .codeOffset, .host⟩ p c →
      PointersTraced ⟨env, conv, .codeOffset, .host⟩ c) ∧
    ∀ c, Reached ⟨env, conv, .codeOffset, .scripted⟩ p c →
      PointersTraced ⟨env, conv, .codeOffset, .scripted⟩ c :=
  ⟨fun _ h => h.pointersTraced rfl Externals.ignoresBlocks_host,
    fun _ h => h.pointersTraced rfl Externals.ignoresBlocks_scripted⟩

/-- In `Program.printSeven` the function that prints gets block 5 for its frame, to which no pointer
leads but its stack pointer. -/
theorem pointers_unforgeable_printSeven : ∃ c c' : Configuration Unit,
    Machine.printSeven.Reached Program.printSeven c ∧
    Machine.printSeven.next? c = some c' ∧ c'.state.depth = 1 ∧
    c'.state.control = .running 2 (.ptr 5 (-8#32)) 0 ∧ ¬ c'.state.Holds 5 := by
  have hsome : (Machine.printSeven.after? ⟨State.printSeven, ()⟩ 4).isSome = true := by
    decide +kernel
  obtain ⟨c', hc'⟩ := Option.isSome_iff_exists.1 hsome
  obtain ⟨c, hc, hnext⟩ := after?_succ_eq_some_iff.1 hc'
  have hbefore : (Machine.printSeven.after? ⟨State.printSeven, ()⟩ 3).map
      (fun c => (c.state.control, c.state.mem.nextBlock)) = some (.calling 2, 5) := by
    decide +kernel
  rw [hc, Option.map_some, Option.some.injEq, Prod.mk.injEq] at hbefore
  have hdepth : (Machine.printSeven.after? ⟨State.printSeven, ()⟩ 4).map (·.state.depth) =
      some 1 := by
    decide +kernel
  rw [hc', Option.map_some, Option.some.injEq] at hdepth
  have hreached : Machine.printSeven.Reached Program.printSeven c :=
    ⟨State.printSeven, (), 3, Program.startsAt_printSeven, hc⟩
  obtain ⟨hcontrol, hconcealed, -⟩ :=
    ((pointers_unforgeable Machine.printSeven.env .standard Program.printSeven).1 c
      hreached).entered 2 _ c' hbefore.1 rfl hnext
  rw [hbefore.2] at hcontrol hconcealed
  exact ⟨c, c', hreached, hnext, hdepth, hcontrol, hconcealed⟩

end Machine

end RegisterMachine
