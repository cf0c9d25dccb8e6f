import RegisterMachine.Check
import RegisterMachine.Machine.Execution
import RegisterMachine.Proofs.Machine.Run
import RegisterMachine.Proofs.Memory.Bytes

/-! # Addresses of slots

A slot lies four bytes for each word of its offset above a stack pointer. The product and the sum
are reckoned in words and wrap before memory looks at them. As long as the exact offset is the
signed reading of a word it is the one that is accessed, and memory refuses it where it lies outside
of the block. Beyond that the accessed slot is another one: two word offsets belong to one slot if
they differ by a multiple of 2³⁰. The checks do not bound the offsets of parameters, so a checked
program can read a slot of its caller under such an offset.

* `exactSlotOffset`, `slotOffset`, `SlotInReach` — where a slot lies, and where it is accessed.
* `slotOffset_eq_iff` — which word offsets belong to one slot.
* `Memory.SlotFits` — a slot that can be accessed.
* `State.AtParam` — a state that is about to read a parameter.
* `Machine.slots_addressed` — how slots are accessed, for all offsets.
* `Program.readAt` — a checked program that reads a parameter at any word offset.
-/

namespace RegisterMachine

variable {m : Memory} {b : BlockId} {o slot slot' : Word} {t : DataType} {c : Chunk} {offset : Int}
  {v : Value}

/-! ## Offsets -/

/-- The byte offset of a slot above a pointer, which may be that of no word. -/
def exactSlotOffset (o slot : Word) : Int := o.toInt + 4 * slot.toInt

/-- The byte offset at which a slot is accessed. -/
def slotOffset (o slot : Word) : Int := (exactSlotOffset o slot).bmod 4294967296

/-- The byte offset of a slot is the signed reading of a word. -/
def SlotInReach (o slot : Word) : Prop :=
  -2147483648 ≤ exactSlotOffset o slot ∧ exactSlotOffset o slot < 2147483648

/-- Slots are addressed with the offset at which they are accessed. -/
theorem toInt_slotAddress : (o + slot * 4#32).toInt = slotOffset o slot :=
  Memory.toInt_slotOffset_eq_bmod o slot

/-- The offset at which a slot is accessed is the signed reading of a word, and as good as the exact
one up to a multiple of 2³². -/
theorem slotOffset_wraps (o slot : Word) :
    -2147483648 ≤ slotOffset o slot ∧ slotOffset o slot < 2147483648 ∧
      4294967296 ∣ slotOffset o slot - exactSlotOffset o slot := by
  have h := (Int.bmod_eq_iff (a := exactSlotOffset o slot) (b := 4294967296)
    (c := slotOffset o slot) (by decide)).1 rfl
  omega

/-- Slots are accessed at their exact offset if it is in reach, and only then. -/
theorem slotOffset_eq_exact_iff :
    slotOffset o slot = exactSlotOffset o slot ↔ SlotInReach o slot := by
  have hwraps := slotOffset_wraps o slot
  unfold SlotInReach
  omega

/-- Two word offsets belong to one slot if they differ by a multiple of 2³⁰. -/
theorem slotOffset_eq_iff :
    slotOffset o slot = slotOffset o slot' ↔ 1073741824 ∣ slot.toInt - slot'.toInt := by
  have hwraps := slotOffset_wraps o slot
  have hwraps' := slotOffset_wraps o slot'
  unfold exactSlotOffset at hwraps hwraps'
  omega

/-- Other word offsets belong to words without a byte in common. -/
theorem slotOffset_disjoint (h : ¬ 1073741824 ∣ slot.toInt - slot'.toInt) :
    slotOffset o slot + 4 ≤ slotOffset o slot' ∨ slotOffset o slot' + 4 ≤ slotOffset o slot := by
  have hwraps := slotOffset_wraps o slot
  have hwraps' := slotOffset_wraps o slot'
  unfold exactSlotOffset at hwraps hwraps'
  omega

/-! ## Accesses -/

namespace Memory

/-- A slot of a type, with its first byte at an offset, can be accessed: it lies within the bounds
of a live block, and at a multiple of four bytes. -/
def SlotFits (m : Memory) (b : BlockId) (t : DataType) (offset : Int) : Prop :=
  ∃ lo hi, m.bounds? b = some (lo, hi) ∧ lo ≤ offset ∧ offset + 4 * t.words ≤ hi ∧ offset % 4 = 0

/-- The bytes of an access hold a value. -/
def Decodes (m : Memory) (c : Chunk) (b : BlockId) (offset : Int) (v : Value) : Prop :=
  ∃ cells : List Cell, cells.length = c.size ∧
    (∀ i : Nat, i < c.size → m.cell? b (offset + i) = cells[i]?) ∧ c.decode cells = v

/-- A slot can be accessed where the chunk of its type fits. -/
theorem slotFits_iff :
    m.SlotFits b t offset ↔
      ∃ lo hi, m.bounds? b = some (lo, hi) ∧ t.slotChunk.FitsIn offset lo hi := by
  simp [SlotFits, Chunk.FitsIn]

/-- A slot that ends above the bounds of its block does not fit. -/
theorem not_slotFits_of_lt {lo hi : Int} (hbounds : m.bounds? b = some (lo, hi))
    (h : hi < offset + 4 * t.words) : ¬ m.SlotFits b t offset := by
  rintro ⟨lo', hi', hbounds', -, hend, -⟩
  rw [hbounds] at hbounds'
  cases hbounds'
  omega

/-- Reading a slot is an access at its offset. -/
theorem loadSlot_ptr (m : Memory) (b : BlockId) (o slot : Word) (t : DataType) :
    m.loadSlot (.ptr b o) t slot = m.load t.slotChunk b (slotOffset o slot) := by
  rw [← toInt_slotAddress]
  rfl

/-- Writing a slot is an access at its offset. -/
theorem storeSlot_ptr (m : Memory) (b : BlockId) (o slot : Word) (t : DataType) (v : Value) :
    m.storeSlot (.ptr b o) t slot v = m.store t.slotChunk b (slotOffset o slot) v := by
  rw [← toInt_slotAddress]
  rfl

/-- A slot can be read where it fits. -/
theorem loadSlot_ptr_isOk_iff :
    (∃ v, m.loadSlot (.ptr b o) t slot = .ok v) ↔ m.SlotFits b t (slotOffset o slot) := by
  simp only [loadSlot_ptr, slotFits_iff, load_isOk_iff]

/-- A slot can be written where it fits. -/
theorem storeSlot_ptr_isOk_iff :
    (∃ m', m.storeSlot (.ptr b o) t slot v = .ok m') ↔ m.SlotFits b t (slotOffset o slot) := by
  simp only [storeSlot_ptr, slotFits_iff, store_isOk_iff]

/-- The value that is read from a slot is what its bytes hold. -/
theorem loadSlot_ptr_eq_ok_iff :
    m.loadSlot (.ptr b o) t slot = .ok v ↔
      m.SlotFits b t (slotOffset o slot) ∧ m.Decodes t.slotChunk b (slotOffset o slot) v := by
  rw [← loadSlot_ptr_isOk_iff, loadSlot_ptr]
  constructor
  · intro h
    exact ⟨⟨v, h⟩, (load_eq_ok_iff_cells.1 h).2⟩
  · rintro ⟨⟨v', h'⟩, hdecodes⟩
    exact load_eq_ok_iff_cells.2 ⟨(load_eq_ok_iff_cells.1 h').1, hdecodes⟩

/-- Nothing is changed by writing a slot but its bytes. -/
theorem writes_of_storeSlot {m' : Memory} (h : m.storeSlot (.ptr b o) t slot v = .ok m') :
    m.SameBounds m' ∧ m.Writes m' b (slotOffset o slot) (t.slotChunk.encode v) := by
  rw [storeSlot_ptr] at h
  exact ⟨.of_store h, .of_store h⟩

end Memory

/-! ## Parameters -/

/-- A state is about to read a parameter at a word offset from its caller's stack pointer, which is
in the link slot. -/
inductive State.AtParam (env : Environment) (s : State) (slot : Word) (t : DataType)
    (dst : Register) (callerSp : Value) : Prop where
  /-- The state is running, and the instruction is the next one. -/
  | intro {func : BlockId} {sp : Value} {pc : Nat} {f : Function}
      (control : s.control = .running func sp pc)
      (function : env.function? func = some (.internal f))
      (fetch : f.code[pc]? = some (.getParam slot t dst))
      (link : s.mem.loadSlot sp .int f.linkSlot = .ok callerSp)

namespace Machine

variable {σ : Type} {machine : Machine σ} {s : State} {dst : Register} {callerSp : Value}

/-- A parameter is read into its register if its slot can be read, and else the step fails as the
access does. -/
theorem step_of_atParam (host : σ) (h : s.AtParam machine.env slot t dst callerSp) :
    (∃ v next, s.mem.loadSlot callerSp t slot = .ok v ∧
      machine.step s host = (.ok next, host) ∧ next.state.regs = s.regs.set dst v) ∨
    (∃ e, s.mem.loadSlot callerSp t slot = .error e ∧
      machine.step s host = (.error (.memory e), host)) := by
  obtain ⟨control, stack, regs, mem⟩ := s
  obtain ⟨rfl, function, fetch, link⟩ := h
  cases hload : mem.loadSlot callerSp t slot with
  | ok v =>
    exact .inl ⟨v, _, rfl,
      step_eq_ok_iff.2 (.silent (.execute function fetch (.getParam link hload))), rfl⟩
  | error e =>
    refine .inr ⟨e, rfl, ?_⟩
    simp [step, Environment.externalCall?, Environment.silentStep,
      Environment.internal_eq_ok_iff.2 function, fetch, Environment.execute, link, hload, bind,
      Except.bind, Except.map]

/-- A parameter can be read if its slot fits where it is accessed. -/
theorem step_isOk_iff_of_atParam (host : σ) (h : s.AtParam machine.env slot t dst (.ptr b o)) :
    (∃ next, machine.step s host = (.ok next, host)) ↔ s.mem.SlotFits b t (slotOffset o slot) := by
  rw [← Memory.loadSlot_ptr_isOk_iff]
  rcases step_of_atParam host h with ⟨v, next, hload, hstep, -⟩ | ⟨e, hload, hstep⟩
  · exact ⟨fun _ => ⟨v, hload⟩, fun _ => ⟨next, hstep⟩⟩
  · simp [hload, hstep]

/-- A step that cannot read its parameter fails in memory. -/
theorem step_error_of_atParam (host : σ) (h : s.AtParam machine.env slot t dst (.ptr b o))
    (hbeyond : ¬ s.mem.SlotFits b t (slotOffset o slot)) :
    ∃ e, machine.step s host = (.error (.memory e), host) := by
  rcases step_of_atParam host h with ⟨v, next, -, hstep, -⟩ | ⟨e, -, hstep⟩
  · exact absurd ((step_isOk_iff_of_atParam host h).1 ⟨next, hstep⟩) hbeyond
  · exact ⟨e, hstep⟩

/-- How slots are addressed, for all pointers and all word offsets. A slot is accessed where its
exact offset wraps to, and nowhere else. In reach that is the exact offset, so that a parameter that
lies beyond its block cannot be read. Slots are told apart by their word offsets up to multiples of
2³⁰. -/
theorem slots_addressed (machine : Machine σ) (m : Memory) (b : BlockId) (o slot : Word)
    (t : DataType) :
    (∀ v, m.loadSlot (.ptr b o) t slot = .ok v ↔
      m.SlotFits b t (slotOffset o slot) ∧ m.Decodes t.slotChunk b (slotOffset o slot) v) ∧
    (∀ v, (∃ m', m.storeSlot (.ptr b o) t slot v = .ok m') ↔ m.SlotFits b t (slotOffset o slot)) ∧
    (∀ v m', m.storeSlot (.ptr b o) t slot v = .ok m' →
      m.SameBounds m' ∧ m.Writes m' b (slotOffset o slot) (t.slotChunk.encode v)) ∧
    (slotOffset o slot = exactSlotOffset o slot ↔ SlotInReach o slot) ∧
    (∀ slot', slotOffset o slot = slotOffset o slot' ↔ 1073741824 ∣ slot.toInt - slot'.toInt) ∧
    (∀ slot', ¬ 1073741824 ∣ slot.toInt - slot'.toInt →
      slotOffset o slot + 4 ≤ slotOffset o slot' ∨ slotOffset o slot' + 4 ≤ slotOffset o slot) ∧
    (∀ s host dst, s.AtParam machine.env slot t dst (.ptr b o) →
      ((∃ next, machine.step s host = (.ok next, host)) ↔
        s.mem.SlotFits b t (slotOffset o slot)) ∧
      (SlotInReach o slot → ¬ s.mem.SlotFits b t (exactSlotOffset o slot) →
        ∃ e, machine.step s host = (.error (.memory e), host))) := by
  refine ⟨fun v => Memory.loadSlot_ptr_eq_ok_iff, fun v => Memory.storeSlot_ptr_isOk_iff,
    fun v m' => Memory.writes_of_storeSlot, slotOffset_eq_exact_iff, fun slot' => slotOffset_eq_iff,
    fun slot' => slotOffset_disjoint, fun s host dst hat => ?_⟩
  refine ⟨step_isOk_iff_of_atParam host hat, fun hreach hbeyond => ?_⟩
  -- In reach the exact offset is the one that is accessed.
  rw [← slotOffset_eq_exact_iff.2 hreach] at hbeyond
  exact step_error_of_atParam host hat hbeyond

end Machine

/-! ## A parameter beyond its block -/

/-- The entry point puts seven into its first slot and calls a function that reads a parameter at a
word offset. -/
def Program.readAt (slot : Word) : Program where
  globals := [
    ("main", .function (.internal {
      signature := .main
      code := #[.op (.intConst 7#32) [] Convention.standard.intResult,
        .setStack Convention.standard.intResult 0#32 .int,
        .op (.intConst 0#32) [] Convention.standard.intResult, .call (.symbol "read"), .ret]
      frameSize := 16#32
      stackSize := 0#32
      linkSlot := 2#32
      returnSlot := 3#32 })),
    ("read", .function (.internal {
      signature := .main
      code := #[.getParam slot .int Convention.standard.intResult, .ret]
      frameSize := 8#32
      stackSize := 0#32
      linkSlot := 0#32
      returnSlot := 1#32 }))]
  entry := "main"

/-- The machine with the host primitives on which `Program.readAt` runs. -/
def Machine.readAt (slot : Word) : Machine Unit :=
  ⟨⟨(Program.readAt slot).globals.toArray⟩, .standard, .codeOffset, .host⟩

/-- The first state of `Program.readAt`. -/
def State.readAt : State :=
  ⟨.calling 1, [], .empty, ⟨Array.replicate 2 (some (.fresh 0 0))⟩⟩

/-- After six steps the parameter is about to be read. -/
theorem Machine.exists_atParam_readAt (slot : Word)
    (h : (((Machine.readAt slot).after? ⟨State.readAt, ()⟩ 6).map fun c =>
        (c.state.control, c.state.mem.bounds? 3,
          (c.state.mem.loadSlot (.ptr 4 (-8#32)) .int 0#32).toOption)) =
      some (.running 2 (.ptr 4 (-8#32)) 0, some (-16, 0), some (.ptr 3 (-16#32)))) :
    ∃ c, (Machine.readAt slot).after? ⟨State.readAt, ()⟩ 6 = some c ∧
      c.state.AtParam (Machine.readAt slot).env slot .int (.int 0) (.ptr 3 (-16#32)) ∧
      c.state.mem.bounds? 3 = some (-16, 0) := by
  simp only [Option.map_eq_some_iff, Prod.mk.injEq] at h
  obtain ⟨c, hc, hcontrol, hbounds, hlink⟩ := h
  exact ⟨c, hc, .intro hcontrol rfl rfl (toOption_eq_some_iff.1 hlink), hbounds⟩

/-- A parameter right above the block of its caller cannot be read. -/
theorem Machine.slots_addressed_readAt : ∃ (c : Configuration Unit) (e : MemoryError),
    (Machine.readAt 4#32).after? ⟨State.readAt, ()⟩ 6 = some c ∧
    c.state.AtParam (Machine.readAt 4#32).env 4#32 .int (.int 0) (.ptr 3 (-16#32)) ∧
    SlotInReach (-16#32) 4#32 ∧ ¬ c.state.mem.SlotFits 3 .int (exactSlotOffset (-16#32) 4#32) ∧
    (Machine.readAt 4#32).step c.state c.host = (.error (.memory e), c.host) := by
  obtain ⟨c, hc, hat, hbounds⟩ := Machine.exists_atParam_readAt 4#32 (by decide +kernel)
  have hreach : SlotInReach (-16#32) 4#32 := by unfold SlotInReach; decide
  have hbeyond : ¬ c.state.mem.SlotFits 3 .int (exactSlotOffset (-16#32) 4#32) :=
    Memory.not_slotFits_of_lt hbounds (by decide)
  obtain ⟨-, -, -, -, -, -, hparam⟩ :=
    slots_addressed (Machine.readAt 4#32) c.state.mem 3 (-16#32) 4#32 .int
  obtain ⟨e, he⟩ := (hparam c.state c.host _ hat).2 hreach hbeyond
  exact ⟨c, e, hc, hat, hreach, hbeyond, he⟩

/-- In a run of a checked program the parameter 2³⁰ words above the stack pointer of the caller can
be read, though it does not lie in the block of the caller: what is read is the first slot. -/
theorem Machine.exists_param_aliased : ∃ (c : Configuration Unit) (next : Transition),
    (Program.readAt 1073741824#32).WellFormed .standard ∧
    (Machine.readAt 1073741824#32).Reached (Program.readAt 1073741824#32) c ∧
    c.state.AtParam (Machine.readAt 1073741824#32).env 1073741824#32 .int (.int 0)
      (.ptr 3 (-16#32)) ∧
    c.state.mem.bounds? 3 = some (-16, 0) ∧
    ¬ c.state.mem.SlotFits 3 .int (exactSlotOffset (-16#32) 1073741824#32) ∧
    slotOffset (-16#32) 1073741824#32 = slotOffset (-16#32) 0#32 ∧
    c.state.regs.get (.int 0) = .int 0#32 ∧
    (Machine.readAt 1073741824#32).step c.state c.host = (.ok next, ()) ∧
    next.state.regs.get (.int 0) = .int 7#32 ∧
    (Program.readAt 1073741824#32).run {} = .ok (.terminates [] 7#32) := by
  obtain ⟨c, hc, hat, hbounds⟩ :=
    Machine.exists_atParam_readAt 1073741824#32 (by decide +kernel)
  have hread : ((Machine.readAt 1073741824#32).after? ⟨State.readAt, ()⟩ 6).bind (fun c =>
      ((Machine.readAt 1073741824#32).step c.state c.host).1.toOption.map fun t =>
        (c.state.regs.get (.int 0), t.state.regs.get (.int 0))) =
      some (.int 0#32, .int 7#32) := by decide +kernel
  rw [hc, Option.bind_some, Option.map_eq_some_iff] at hread
  obtain ⟨next, hnext, hregs⟩ := hread
  rw [Prod.mk.injEq] at hregs
  have hstart : (Program.readAt 1073741824#32).StartsAt (Machine.readAt 1073741824#32)
      State.readAt := .of_symbol? rfl (by decide +kernel) rfl
  have hbeyond : ¬ c.state.mem.SlotFits 3 .int (exactSlotOffset (-16#32) 1073741824#32) :=
    Memory.not_slotFits_of_lt hbounds (by decide)
  have hrun : ((Program.readAt 1073741824#32).run {}).toOption = some (.terminates [] 7#32) := by
    decide +kernel
  exact ⟨c, next, by decide +kernel, ⟨State.readAt, (), 6, hstart, hc⟩, hat, hbounds, hbeyond,
    slotOffset_eq_iff.2 (by decide), hregs.1, Prod.ext (toOption_eq_some_iff.1 hnext) rfl, hregs.2,
    toOption_eq_some_iff.1 hrun⟩

end RegisterMachine
