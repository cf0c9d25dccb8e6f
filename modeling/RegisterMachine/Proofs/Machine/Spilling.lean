import RegisterMachine.Proofs.Machine.Linkage
import RegisterMachine.Proofs.Machine.RegisterClasses

/-! # Spilled values

A function that runs out of registers puts values into slots of its frame and takes them back later.
In a checked program such a value is found again as it was, bit by bit, as long as no instruction
writes to the slot: the functions that are called and left in the meantime have frames of their own,
and the chunk of a slot keeps every value of its type.

* `Value.SlotByte` — the bytes of a slot.
* `Machine.cell?_eq_of_after?` — a run does not change the bytes that none of its instructions
  writes.
* `Machine.Takes.loadSlot_of_setStack` — a value can be read from the slot into which it has been
  put.
* `Machine.KeepsSlot`, `Machine.spilled_values_survive` — a value that is put into a slot and taken
  back later, with no write to the slot in between, is the same.
-/

namespace RegisterMachine

variable {σ : Type} {env : Environment} {p : Program} {conv : Convention} {m : Machine σ}
  {func func' b : BlockId} {sp : Value} {pc pc' n : Nat} {s s' : State} {i : Instruction}
  {src dst : Register} {slot : Word} {t : DataType} {x : Int}

/-! ## Instructions of a running state -/

/-- A step from a running state executes the next instruction. -/
theorem Machine.Takes.executes {host host' : σ} {events : List Event}
    (h : m.Takes s host ⟨events, s'⟩ host') (running : s.control = .running func sp pc)
    (instr : s.instruction? m.env = some i) :
    ∃ f, m.env.function? func = some (.internal f) ∧ f.code[pc]? = some i ∧
      Executes m.env m.returnAddress f func sp pc s.stack s.regs s.mem i s' := by
  obtain ⟨f, hf, hfetch⟩ := State.exists_function_of_instruction? running instr
  cases h with
  | silent step =>
    cases step with
    | execute function fetch executes =>
      cases running
      rw [function, Option.some.injEq, FunctionDef.internal.injEq] at hf
      subst hf
      rw [fetch, Option.some.injEq] at hfetch
      subst hfetch
      exact ⟨_, function, fetch, executes⟩
    | enter function entered => cases running
    | resume => cases running
  | external call arguments result =>
    obtain ⟨callee, hcalling, -⟩ := Environment.exists_of_externalCall? call
    rw [hcalling] at running
    cases running

/-! ## Slots that are not written -/

/-- A byte belongs to the slot of a type at an offset from a stack pointer. -/
def Value.SlotByte (sp : Value) (slot : Word) (t : DataType) (b : BlockId) (x : Int) : Prop :=
  ∃ o, slotAddress sp slot = .ok (.ptr b o) ∧ o.toInt ≤ x ∧ x < o.toInt + t.slotChunk.size

namespace Machine

variable {c c' : Configuration σ}

/-- A byte that no instruction of a run writes keeps its cell, if its block was there at the start
and is still there at the end. -/
theorem cell?_eq_of_after? (h : m.after? c n = some c') (hlt : b < c.state.mem.nextBlock)
    (hlive : c'.state.mem.isLive b = true)
    (hx : ∀ k c'', k < n → m.after? c k = some c'' → ¬ c''.state.Writes m.env b x) :
    c'.state.mem.cell? b x = c.state.mem.cell? b x := by
  induction n generalizing c' with
  | zero =>
    cases h
    rfl
  | succ n ih =>
    obtain ⟨c₁, hc₁, hnext⟩ := after?_succ_eq_some_iff.1 h
    obtain ⟨events, htakes⟩ := next?_eq_some_iff.1 hnext
    have hlt₁ : b < c₁.state.mem.nextBlock := Nat.lt_of_lt_of_le hlt (nextBlock_le_of_after? hc₁)
    -- A block does not come back to life, so it was there all the time.
    have hlive₁ : c₁.state.mem.isLive b = true :=
      (frameStep_of_next? hnext).isLive_of_isLive hlt₁ hlive
    rw [htakes.cell?_eq hlt₁ hlive (hx n c₁ (Nat.lt_succ_self n) hc₁)]
    exact ih hc₁ hlive₁ fun k c'' hk => hx k c'' (Nat.lt_succ_of_lt hk)

/-- Between its first step and its step number `n` a run writes no byte of a slot. -/
def KeepsSlot (m : Machine σ) (c : Configuration σ) (n : Nat) (sp : Value) (slot : Word)
    (t : DataType) : Prop :=
  ∀ k c', 0 < k → k < n → m.after? c k = some c' →
    ∀ b x, sp.SlotByte slot t b x → ¬ c'.state.Writes m.env b x

/-- In an accepted program a register that is put into a slot can be read from there: the slot is of
the type of the register, and the register holds a value of this type. -/
theorem Takes.loadSlot_of_setStack {host host' : σ} {events : List Event} {mem₀ : Memory}
    (hwf : p.WellFormed conv) (hloads : p.Loads m.env mem₀) (htyped : s.regs.Typed)
    (htakes : m.Takes s host ⟨events, s'⟩ host') (running : s.control = .running func sp pc)
    (instr : s.instruction? m.env = some (.setStack src slot t)) :
    s'.mem.loadSlot sp t slot = .ok (s.regs.get src) := by
  obtain ⟨f, hf, hfetch, hexecutes⟩ := htakes.executes running instr
  obtain ⟨name, ha⟩ := hwf.accepts_of_function? hloads hf
  have hclass : src.dataType = t := classViolations_eq_nil_iff.1 (ha.operands pc _ hfetch)
  cases hexecutes with
  | setStack written => exact Memory.loadSlot_of_storeSlot (hclass ▸ htyped src) written

/-- A step from a state in which a slot can be read takes the value of the slot into a register. -/
theorem next?_of_getStack {v : Value} (running : c.state.control = .running func sp pc)
    (instr : c.state.instruction? m.env = some (.getStack slot t dst))
    (read : c.state.mem.loadSlot sp t slot = .ok v) :
    m.next? c = some ⟨⟨.running func sp (pc + 1), c.state.stack, c.state.regs.set dst v,
      c.state.mem⟩, c.host⟩ := by
  obtain ⟨f, hf, hfetch⟩ := State.exists_function_of_instruction? running instr
  obtain ⟨⟨control, stack, regs, mem⟩, host⟩ := c
  cases running
  exact next?_eq_some_iff.2 ⟨[], .silent (.execute hf hfetch (.getStack read))⟩

/-- Spilled values survive. In every run of a well-formed program, under a class-correct convention
and with external calls whose results have the types that the program declares, let an instruction
put a register into a slot, and a later one of the same frame take the slot into a register. If no
instruction in between, of the function or of anything that it has called, has written a byte of the
slot, then the second instruction succeeds, and its register receives the value that the first one
had: the same integer, the same pointer, the same bits of a double, or the undefined value. -/
theorem spilled_values_survive (hwf : p.WellFormed conv) (hconv : m.convention.ClassCorrect)
    (hexternals : m.externals.ResultsFit p) (h : m.Reached p c)
    (spills : c.state.control = .running func sp pc)
    (spill : c.state.instruction? m.env = some (.setStack src slot t))
    (run : m.after? c n = some c') (pos : 0 < n)
    (reloads : c'.state.control = .running func' sp pc')
    (reload : c'.state.instruction? m.env = some (.getStack slot t dst))
    (keeps : m.KeepsSlot c n sp slot t) :
    ∃ c'', m.next? c' = some c'' ∧ c''.state.regs.get dst = c.state.regs.get src := by
  obtain ⟨c₁, hc₁, hrest⟩ := exists_after?_of_le pos run
  have hnext : m.next? c = some c₁ := by simpa [after?] using hc₁
  obtain ⟨events, htakes⟩ := next?_eq_some_iff.1 hnext
  obtain ⟨mem₀, hload⟩ := h.load
  have hspilled : c₁.state.mem.loadSlot sp t slot = .ok (c.state.regs.get src) :=
    htakes.loadSlot_of_setStack hwf (Program.loads_of_load hload)
      (.of_reached hwf hconv hexternals h) spills spill
  obtain ⟨b, o, rfl, hread⟩ := Memory.loadSlot_eq_ok_iff.1 hspilled
  -- The frame was there after the first instruction, and it is the current one at the second.
  have hlt : b < c₁.state.mem.nextBlock := by
    obtain ⟨r, hr, -⟩ := Memory.load_eq_ok_iff.1 hread
    exact Memory.lt_nextBlock_of_region? hr
  have hlive : c'.state.mem.isLive b = true := by
    have hreached : m.Reached p c' := after?_invariant h (fun _ _ h hnext => h.next hnext) run
    have hframe : c'.state.HasFrame func' (.ptr b o) c'.state.stack := .current reloads
    obtain ⟨f, b', hat⟩ := (State.FrameDiscipline.of_reached hreached).framed _ hframe.mem_frames
    rw [hat.block_eq]
    exact hat.isLive
  have hcells : ∀ x, (o + slot * 4#32).toInt ≤ x → x < (o + slot * 4#32).toInt + t.slotChunk.size →
      c'.state.mem.cell? b x = c₁.state.mem.cell? b x := by
    intro x hle hx
    refine cell?_eq_of_after? hrest hlt hlive fun k c'' hk hc'' => ?_
    have hafter : m.after? c (1 + k) = some c'' := by rw [after?_add, hc₁, Option.bind_some, hc'']
    exact keeps (1 + k) c'' (by omega) (by omega) hafter b x
      ⟨_, slotAddress_ptr b o slot, hle, hx⟩
  have hreload := next?_of_getStack reloads reload ((Memory.loadSlot_congr hcells).2 hspilled)
  exact ⟨_, hreload, RegisterFile.get_set_self _ _ _⟩

end Machine

/-! ## A program that spills a double -/

/-- The next instruction of a state stores nothing and writes to no slot in a block, so it does not
write to the block. Which block a store writes to is not looked at. -/
def State.sparesBlock (env : Environment) (s : State) (b : BlockId) : Bool :=
  match s.control, s.instruction? env with
  | .running _ sp _, some (.setStack ..) => sp.block? != some b
  | _, some (.store ..) => false
  | _, _ => true

/-- An instruction that spares a block writes none of its bytes. -/
theorem State.not_writes_of_sparesBlock (h : s.sparesBlock env b = true) : ¬ s.Writes env b x := by
  intro hwrites
  cases hwrites with
  | setStack control instr address le lt =>
    obtain ⟨b', o', rfl, heq⟩ := slotAddress_eq_ok_iff.1 address
    cases heq
    simp [sparesBlock, control, instr, Value.block?] at h
  | store control instr address le lt => simp [sparesBlock, control, instr] at h

/-- The entry point keeps a not-a-number with a sign and a fraction of its own in a slot while it
calls a function. This function puts another double into the same register and the same slot of its
own frame, and gives up the frame to print seven. -/
def Program.spillNaN : Program where
  globals := [
    ("main", .function (.internal {
      signature := .main
      code := #[.op (.intConst 7#32) [] Convention.standard.intResult,
        .op (.floatConst ⟨0xFFF8000000000001#64⟩) [] Convention.standard.floatResult,
        .setStack Convention.standard.floatResult 2#32 .float, .call (.symbol "show"),
        .getStack 2#32 .float Convention.standard.floatResult, .ret]
      frameSize := 16#32
      stackSize := 0#32
      linkSlot := 0#32
      returnSlot := 1#32 })),
    ("show", .function (.internal {
      signature := ⟨[.int], some .int⟩
      code := #[.op (.floatConst ⟨0#64⟩) [] Convention.standard.floatResult,
        .setStack Convention.standard.floatResult 2#32 .float, .tailCall (.symbol "print_int")]
      frameSize := 16#32
      stackSize := 0#32
      linkSlot := 0#32
      returnSlot := 1#32 })),
    ("print_int", .function (.external ⟨"print_int", ⟨[.int], some .int⟩⟩))]
  entry := "main"

/-- The machine with the host primitives on which `Program.spillNaN` runs. -/
def Machine.spillNaN : Machine Unit :=
  ⟨⟨Program.spillNaN.globals.toArray⟩, .standard, .codeOffset, .host⟩

/-- The program runs on its machine from the first state of `Program.printSeven`: there are as many
functions. -/
theorem Program.startsAt_spillNaN : Program.spillNaN.StartsAt Machine.spillNaN .printSeven :=
  .of_symbol? rfl (by decide +kernel) rfl

namespace Machine

/-- In `Program.spillNaN` the slot is read eight steps after it has been written, with a call, a
tail call, an external call and a write to another frame in between, and gives back the bits of the
not-a-number. -/
theorem spilled_values_survive_spillNaN : ∃ c c' c'' : Configuration Unit,
    Program.spillNaN.WellFormed Machine.spillNaN.convention ∧
    Machine.spillNaN.convention.ClassCorrect ∧
    Machine.spillNaN.externals.ResultsFit Program.spillNaN ∧
    Machine.spillNaN.Reached Program.spillNaN c ∧ Machine.spillNaN.after? c 8 = some c' ∧
    Machine.spillNaN.KeepsSlot c 8 (.ptr 4 (-16#32)) 2#32 .float ∧
    Machine.spillNaN.next? c' = some c'' ∧
    c''.state.regs.get (.float 0) = .float ⟨0xFFF8000000000001#64⟩ := by
  have hsome : (Machine.spillNaN.after? ⟨State.printSeven, ()⟩ 11).isSome = true := by
    decide +kernel
  obtain ⟨c', hc'⟩ := Option.isSome_iff_exists.1 hsome
  obtain ⟨c, hc, hrest⟩ := exists_after?_of_le (k := 3) (by decide) hc'
  have hspill : (Machine.spillNaN.after? ⟨State.printSeven, ()⟩ 3).map
      (fun c => (c.state.control, c.state.instruction? Machine.spillNaN.env,
        c.state.regs.get (.float 0))) =
        some (.running 1 (.ptr 4 (-16#32)) 2, some (.setStack (.float 0) 2#32 .float),
          .float ⟨0xFFF8000000000001#64⟩) := by
    decide +kernel
  rw [hc, Option.map_some, Option.some.injEq, Prod.mk.injEq, Prod.mk.injEq] at hspill
  obtain ⟨hcontrol, hinstr, hvalue⟩ := hspill
  have hreload : (Machine.spillNaN.after? ⟨State.printSeven, ()⟩ 11).map
      (fun c => (c.state.control, c.state.instruction? Machine.spillNaN.env)) =
        some (.running 1 (.ptr 4 (-16#32)) 4, some (.getStack 2#32 .float (.float 0))) := by
    decide +kernel
  rw [hc', Option.map_some, Option.some.injEq, Prod.mk.injEq] at hreload
  obtain ⟨hcontrol', hinstr'⟩ := hreload
  have hwf : Program.spillNaN.WellFormed Machine.spillNaN.convention := by decide +kernel
  have hconv : Machine.spillNaN.convention.ClassCorrect := Convention.classCorrect_standard
  have hexternals : Machine.spillNaN.externals.ResultsFit Program.spillNaN := by
    apply Externals.resultsFit_host
    intro name ef hmem
    simp only [Program.spillNaN, List.mem_cons, Prod.mk.injEq, Global.function.injEq,
      FunctionDef.external.injEq, reduceCtorEq, and_false, List.not_mem_nil, or_false,
      false_or] at hmem
    rw [hmem.2]
    rfl
  have hreached : Machine.spillNaN.Reached Program.spillNaN c :=
    ⟨State.printSeven, (), 3, Program.startsAt_spillNaN, hc⟩
  -- The only other instruction that writes runs on the frame of the function that is called.
  have hspared : ∀ k < 8, 0 < k → (Machine.spillNaN.after? ⟨State.printSeven, ()⟩ (3 + k)).all
      (fun c => c.state.sparesBlock Machine.spillNaN.env 4) = true := by
    decide +kernel
  have hkeeps : Machine.spillNaN.KeepsSlot c 8 (.ptr 4 (-16#32)) 2#32 .float := by
    rintro k ck hpos hk hck b x ⟨o, haddress, -, -⟩
    cases haddress
    have hsparedk := hspared k hk hpos
    rw [after?_add, hc, Option.bind_some, hck, Option.all_some] at hsparedk
    exact State.not_writes_of_sparesBlock hsparedk
  obtain ⟨c'', hnext, hget⟩ := spilled_values_survive hwf hconv hexternals hreached hcontrol hinstr
    hrest (by decide) hcontrol' hinstr' hkeeps
  exact ⟨c, c', c'', hwf, hconv, hexternals, hreached, hrest, hkeeps, hnext, hget.trans hvalue⟩

end Machine

end RegisterMachine
