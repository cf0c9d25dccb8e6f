import RegisterMachine.Proofs.Evaluation.ResultTypes
import RegisterMachine.Proofs.Machine.Calls
import RegisterMachine.Proofs.Machine.Leaks
import RegisterMachine.Proofs.Memory.Bytes

/-! # Linkage of frames

A function that is entered finds the stack pointer and the return address of its caller in the two
reserved slots of its frame. They stay there as long as no instruction writes to them, whatever the
function calls in the meantime, so in a checked program only such a write can keep it from
returning.

* `Function.ReservedByte` — the bytes of the reserved slots of a frame.
* `State.Writes` — an instruction is about to write a byte of memory.
* `State.HasFrame` — a frame of a state, with the callers below it.
* `Function.Linked` — the reserved slots of a frame hold what the record of the caller says.
* `Function.Linked.of_enterFrame`, `Function.Linked.of_takes` — entering links a frame, and steps
  that write none of its reserved bytes keep it linked.
* `Machine.EntersAt` — the step of a run that enters a function.
* `Machine.linkage_intact` — a frame stays linked from its entry on while its slots are not written.
-/

namespace RegisterMachine

variable {env : Environment} {addresses : ReturnAddresses} {p : Program} {conv : Convention}
  {name : String} {f : Function} {func b : BlockId} {sp : Value} {pc : Nat}
  {stack : CallStack} {regs : RegisterFile} {mem mem' : Memory} {i : Instruction} {s s' : State}
  {x : Int}

/-! ## Writes -/

/-- A byte belongs to one of the reserved slots of a frame. -/
def Function.ReservedByte (f : Function) (sp : Value) (b : BlockId) (x : Int) : Prop :=
  ∃ slot o, (slot = f.linkSlot ∨ slot = f.returnSlot) ∧ slotAddress sp slot = .ok (.ptr b o) ∧
    o.toInt ≤ x ∧ x < o.toInt + DataType.int.slotChunk.size

/-- The next step of a state executes an instruction that writes a byte of memory. -/
inductive State.Writes (env : Environment) (s : State) (b : BlockId) (x : Int) : Prop where
  /-- A register is written into a slot of the frame. -/
  | setStack {func : BlockId} {sp : Value} {pc : Nat} {src : Register} {slot : Word} {t : DataType}
      {o : Word} (control : s.control = .running func sp pc)
      (instr : s.instruction? env = some (.setStack src slot t))
      (address : slotAddress sp slot = .ok (.ptr b o)) (le : o.toInt ≤ x)
      (lt : x < o.toInt + t.slotChunk.size)
  /-- A register is written to memory. -/
  | store {func : BlockId} {sp : Value} {pc : Nat} {chunk : Chunk} {mode : Addressing}
      {args : List Register} {src : Register} {o : Word}
      (control : s.control = .running func sp pc)
      (instr : s.instruction? env = some (.store chunk mode args src))
      (address : mode.eval? env sp (s.regs.getList args) = some (.ptr b o)) (le : o.toInt ≤ x)
      (lt : x < o.toInt + chunk.size)

namespace Memory

variable {b' : BlockId} {o slot : Word} {t : DataType} {v : Value}

/-- A store into a slot changes the bytes of the slot only. -/
theorem cell?_of_storeSlot (h : mem.storeSlot (.ptr b' o) t slot v = .ok mem')
    (hx : b = b' → ¬ ((o + slot * 4#32).toInt ≤ x ∧
      x < (o + slot * 4#32).toInt + t.slotChunk.size)) : mem'.cell? b x = mem.cell? b x := by
  obtain ⟨_, _, heq, hstore⟩ := storeSlot_eq_ok_iff.1 h
  cases heq
  rw [cell?_of_store hstore, if_neg fun hin => hx hin.1 hin.2]

/-- A frame that is entered changes no bytes of other blocks. -/
theorem cell?_of_enterFrame (h : f.enterFrame stack mem = .ok (sp, mem'))
    (hb : b ≠ mem.nextBlock) : mem'.cell? b x = mem.cell? b x := by
  obtain ⟨rfl, linked, hlink, hreturn⟩ := Function.enterFrame_eq_ok_iff.1 h
  rw [cell?_of_storeSlot hreturn fun heq => absurd heq hb,
    cell?_of_storeSlot hlink fun heq => absurd heq hb, cell?_alloc, if_neg hb]

/-- A frame that is left takes the bytes of its own block away only. -/
theorem cell?_of_releaseFrame (h : f.releaseFrame sp stack mem = .ok mem')
    (hb : mem'.isLive b = true) : mem'.cell? b x = mem.cell? b x := by
  obtain ⟨-, -, b', o, -, hfree⟩ := Function.releaseFrame_eq_ok_iff.1 h
  have hne : b ≠ b' := by
    rintro rfl
    rw [isLive_eq_isSome_bounds?, bounds?_of_free hfree, if_pos rfl] at hb
    cases hb
  rw [cell?_of_free hfree, if_neg hne]

end Memory

/-- Instructions that do not write a byte of a block leave it as it is, if the block is still
there. -/
theorem Executes.cell?_eq (function : env.function? func = some (.internal f))
    (fetch : f.code[pc]? = some i) (h : Executes env addresses f func sp pc stack regs mem i s')
    (hlive : s'.mem.isLive b = true)
    (hx : ¬ State.Writes env ⟨.running func sp pc, stack, regs, mem⟩ b x) :
    s'.mem.cell? b x = mem.cell? b x := by
  have hinstr : State.instruction? env ⟨.running func sp pc, stack, regs, mem⟩ = some i :=
    (State.instruction?_running function).trans fetch
  cases h with
  | setStack written =>
    obtain ⟨b', o, rfl, -⟩ := Memory.storeSlot_eq_ok_iff.1 written
    refine Memory.cell?_of_storeSlot written ?_
    rintro rfl ⟨hle, hlt⟩
    exact hx (.setStack rfl hinstr (slotAddress_ptr _ _ _) hle hlt)
  | store address written =>
    rename_i chunk mode args src a mem'
    cases a with
    | ptr b' o =>
      rw [Memory.cell?_of_store written, if_neg]
      rintro ⟨rfl, hle, hlt⟩
      exact hx (.store rfl hinstr address hle hlt)
    | int n => cases written
    | float x => cases written
    | undefined => cases written
  | tailCall resolved released => exact Memory.cell?_of_releaseFrame released hlive
  | ret released => exact Memory.cell?_of_releaseFrame released hlive
  | label => rfl
  | getStack read => rfl
  | getParam link read => rfl
  | op result => rfl
  | load address read => rfl
  | call resolved returns => rfl
  | goto jump => rfl
  | condTaken holds jump => rfl
  | condPassed fails => rfl
  | jumpTable index nonneg target jump => rfl

/-- Steps that do not write a byte of a block leave it as it is, if the block was there before and
is still there. -/
theorem Machine.Takes.cell?_eq {σ : Type} {m : Machine σ} {host host' : σ} {t : Transition}
    (h : m.Takes s host t host') (hlt : b < s.mem.nextBlock) (hlive : t.state.mem.isLive b = true)
    (hx : ¬ s.Writes m.env b x) : t.state.mem.cell? b x = s.mem.cell? b x := by
  cases h with
  | silent step =>
    cases step with
    | execute function fetch executes => exact executes.cell?_eq function fetch hlive hx
    | enter function entered => exact Memory.cell?_of_enterFrame entered (Nat.ne_of_lt hlt)
    | resume => rfl
  | external call arguments result => rfl

/-! ## Frames and the callers below them -/

/-- A frame of a state: a function that has been entered and not left, its stack pointer, and the
callers that are suspended below it. -/
inductive State.HasFrame (s : State) : BlockId → Value → CallStack → Prop where
  /-- The frame of the current function. -/
  | current {func : BlockId} {sp : Value} {pc : Nat} (control : s.control = .running func sp pc) :
      HasFrame s func sp s.stack
  /-- The frame of a suspended caller. -/
  | suspended {a : Activation} {stack : CallStack} (suffix : a :: stack <:+ s.stack) :
      HasFrame s a.func a.sp stack

/-- A frame with its callers is one of the frames of the state. -/
theorem State.HasFrame.mem_frames (h : s.HasFrame func sp stack) : (func, sp) ∈ s.frames := by
  cases h with
  | current control => simp [frames, control]
  | suspended suffix =>
    have hmem := suffix.subset (List.mem_cons_self ..)
    unfold frames
    split
    · exact List.mem_cons_of_mem _ (List.mem_map.2 ⟨_, hmem, rfl⟩)
    · exact List.mem_map.2 ⟨_, hmem, rfl⟩
    · exact List.mem_map.2 ⟨_, hmem, rfl⟩

/-- The frames of a state after an instruction were there before. -/
theorem State.HasFrame.of_executes {func' : BlockId} {sp' : Value} {stack' : CallStack}
    (h : s'.HasFrame func' sp' stack')
    (executes : Executes env addresses f func sp pc stack regs mem i s') :
    State.HasFrame ⟨.running func sp pc, stack, regs, mem⟩ func' sp' stack' := by
  -- While the function goes on its frame and those below it are the same.
  have hkeep : ∀ {regs' mem' next},
      State.HasFrame ⟨.running func sp next, stack, regs', mem'⟩ func' sp' stack' →
      State.HasFrame ⟨.running func sp pc, stack, regs, mem⟩ func' sp' stack' := by
    intro regs' mem' next h
    cases h with
    | current control =>
      cases control
      exact .current rfl
    | suspended suffix => exact .suspended suffix
  cases executes with
  | call resolved returns =>
    cases h with
    | current control => cases control
    | suspended suffix =>
      rcases List.suffix_cons_iff.1 suffix with heq | suffix
      · cases heq
        exact .current rfl
      · exact .suspended suffix
  | tailCall resolved released =>
    cases h with
    | current control => cases control
    | suspended suffix => exact .suspended suffix
  | ret released =>
    cases h with
    | current control => cases control
    | suspended suffix => exact .suspended suffix
  | label => exact hkeep h
  | getStack read => exact hkeep h
  | setStack written => exact hkeep h
  | getParam link read => exact hkeep h
  | op result => exact hkeep h
  | load address read => exact hkeep h
  | store address written => exact hkeep h
  | goto jump => exact hkeep h
  | condTaken holds jump => exact hkeep h
  | condPassed fails => exact hkeep h
  | jumpTable index nonneg target jump => exact hkeep h

/-- A frame of a state after a step was there before, or it is that of a function that the step has
entered. -/
theorem State.HasFrame.of_takes {σ : Type} {m : Machine σ} {host host' : σ} {t : Transition}
    (h : t.state.HasFrame func sp stack) (htakes : m.Takes s host t host') :
    s.HasFrame func sp stack ∨
      s.control = .calling func ∧ t.state.control = .running func sp 0 ∧ stack = s.stack ∧
        ∃ f, m.env.function? func = some (.internal f) ∧
          f.enterFrame stack s.mem = .ok (sp, t.state.mem) := by
  cases htakes with
  | silent step =>
    cases step with
    | execute function fetch executes => exact .inl (h.of_executes executes)
    | enter function entered =>
      cases h with
      | current control =>
        cases control
        exact .inr ⟨rfl, rfl, rfl, _, function, entered⟩
      | suspended suffix => exact .inl (.suspended suffix)
    | resume =>
      cases h with
      | current control =>
        cases control
        exact .inl (.suspended (List.suffix_refl _))
      | suspended suffix => exact .inl (.suspended (suffix.trans (List.suffix_cons _ _)))
  | external call arguments result =>
    cases h with
    | current control => cases control
    | suspended suffix => exact .inl (.suspended suffix)

/-! ## Linked frames -/

/-- The reserved slots of a frame hold the stack pointer and the return address of the innermost
caller. -/
structure Function.Linked (f : Function) (mem : Memory) (sp : Value) (stack : CallStack) :
    Prop where
  /-- The link slot holds the stack pointer. -/
  link : mem.loadSlot sp .int f.linkSlot = .ok stack.callerSp
  /-- The return-address slot holds the return address. -/
  returnAddress : mem.loadSlot sp .int f.returnSlot = .ok stack.callerRa

/-- A slot is read as before while its bytes keep their cells. -/
theorem Memory.loadSlot_congr {o slot : Word} {t : DataType} {v : Value}
    (h : ∀ x, (o + slot * 4#32).toInt ≤ x → x < (o + slot * 4#32).toInt + t.slotChunk.size →
      mem'.cell? b x = mem.cell? b x) :
    mem'.loadSlot (.ptr b o) t slot = .ok v ↔ mem.loadSlot (.ptr b o) t slot = .ok v := by
  have hload : mem'.load t.slotChunk b (o + slot * 4#32).toInt = .ok v ↔
      mem.load t.slotChunk b (o + slot * 4#32).toInt = .ok v :=
    load_congr fun i hi => h _ (by omega) (by omega)
  simp only [loadSlot_eq_ok_iff]
  constructor
  · rintro ⟨_, _, heq, hv⟩
    cases heq
    exact ⟨b, o, rfl, hload.1 hv⟩
  · rintro ⟨_, _, heq, hv⟩
    cases heq
    exact ⟨b, o, rfl, hload.2 hv⟩

/-- A value that fits in a slot is read back from there. -/
theorem Memory.loadSlot_of_storeSlot {slot : Word} {t : DataType} {v : Value} (hv : v.HasType t)
    (h : mem.storeSlot sp t slot v = .ok mem') : mem'.loadSlot sp t slot = .ok v := by
  obtain ⟨b, o, rfl, hstore⟩ := storeSlot_eq_ok_iff.1 h
  have hload := load_of_store hstore
  rw [Chunk.decode_encode_slotChunk hv] at hload
  exact loadSlot_eq_ok_iff.2 ⟨b, o, rfl, hload⟩

namespace Function.Linked

/-- A frame of an accepted function is linked when it has been entered: the reserved slots do not
overlap, so that the second store does not touch the first slot. -/
theorem of_enterFrame (ha : p.Accepts conv name f) (hsp : stack.callerSp.HasType .int)
    (hra : stack.callerRa.HasType .int) (h : f.enterFrame stack mem = .ok (sp, mem')) :
    f.Linked mem' sp stack := by
  obtain ⟨rfl, linked, hlink, hreturn⟩ := Function.enterFrame_eq_ok_iff.1 h
  refine ⟨?_, Memory.loadSlot_of_storeSlot hra hreturn⟩
  have hlinked := Memory.loadSlot_of_storeSlot hsp hlink
  refine (Memory.loadSlot_congr fun x hle hlt => ?_).2 hlinked
  refine Memory.cell?_of_storeSlot hreturn fun _ hin => ?_
  have hsize : DataType.int.slotChunk.size = 4 := rfl
  rw [ha.toInt_slotOffset ha.link_fits] at hle hlt
  rw [ha.toInt_slotOffset ha.return_fits] at hin
  have hne : f.linkSlot.toInt ≠ f.returnSlot.toInt := fun heq =>
    ha.link_ne_return (BitVec.eq_of_toInt_eq heq)
  omega

/-- Steps that write none of its reserved bytes keep a frame linked, if its block was there before
and is still there. -/
theorem of_takes {σ : Type} {m : Machine σ} {host host' : σ} {t : Transition}
    (h : f.Linked s.mem (f.frameSp b) stack) (htakes : m.Takes s host t host')
    (hlt : b < s.mem.nextBlock) (hlive : t.state.mem.isLive b = true)
    (hx : ∀ b' x, f.ReservedByte (f.frameSp b) b' x → ¬ s.Writes m.env b' x) :
    f.Linked t.state.mem (f.frameSp b) stack := by
  have hcell : ∀ slot, slot = f.linkSlot ∨ slot = f.returnSlot → ∀ x,
      (-f.frameSize + slot * 4#32).toInt ≤ x →
      x < (-f.frameSize + slot * 4#32).toInt + DataType.int.slotChunk.size →
      t.state.mem.cell? b x = s.mem.cell? b x := by
    intro slot hslot x hle hx'
    exact htakes.cell?_eq hlt hlive (hx b x ⟨slot, _, hslot, slotAddress_ptr _ _ _, hle, hx'⟩)
  exact ⟨(Memory.loadSlot_congr (hcell _ (.inl rfl))).2 h.link,
    (Memory.loadSlot_congr (hcell _ (.inr rfl))).2 h.returnAddress⟩

end Function.Linked

/-! ## From the entry of a function on -/

namespace Machine

variable {σ : Type} {m : Machine σ} {host host' : σ} {t : Transition} {c₀ c : Configuration σ}
  {n e e' : Nat}

/-- A run enters a function with its step number `e`, and the frame has the given stack pointer. -/
def EntersAt (m : Machine σ) (c₀ : Configuration σ) (e : Nat) (func : BlockId) (sp : Value) :
    Prop :=
  ∃ c₁ c₂, m.after? c₀ e = some c₁ ∧ m.next? c₁ = some c₂ ∧ c₁.state.control = .calling func ∧
    c₂.state.control = .running func sp 0

/-- A step from a call into a running function enters its frame. -/
theorem Takes.exists_enterFrame {func' : BlockId} (h : m.Takes s host t host')
    (calling : s.control = .calling func) (running : t.state.control = .running func' sp pc) :
    ∃ f : Function, f.enterFrame s.stack s.mem = .ok (sp, t.state.mem) := by
  cases h with
  | silent step =>
    cases step with
    | execute function fetch executes => cases calling
    | enter function entered =>
      cases running
      exact ⟨_, entered⟩
    | resume => cases calling
  | external call arguments result => cases running

/-- A function that is entered gets the next block for its frame. -/
theorem EntersAt.nextBlock (h : m.EntersAt c₀ e func sp) :
    ∃ c₁ c₂, m.after? c₀ e = some c₁ ∧ m.after? c₀ (e + 1) = some c₂ ∧
      sp.block? = some c₁.state.mem.nextBlock ∧
      c₂.state.mem.nextBlock = c₁.state.mem.nextBlock + 1 := by
  obtain ⟨c₁, c₂, hc₁, hnext, hcalling, hrunning⟩ := h
  obtain ⟨events, htakes⟩ := next?_eq_some_iff.1 hnext
  obtain ⟨f, hentered⟩ := htakes.exists_enterFrame hcalling hrunning
  obtain ⟨rfl, linked, hlink, hreturn⟩ := Function.enterFrame_eq_ok_iff.1 hentered
  refine ⟨c₁, c₂, hc₁, after?_succ_eq_some_iff.2 ⟨c₁, hc₁, hnext⟩, rfl, ?_⟩
  rw [(Memory.SameBounds.of_storeSlot hreturn).nextBlock,
    (Memory.SameBounds.of_storeSlot hlink).nextBlock, Memory.nextBlock_alloc]

/-- A run does not give up blocks that it has allocated. -/
theorem nextBlock_le_of_after? (h : m.after? c₀ n = some c) :
    c₀.state.mem.nextBlock ≤ c.state.mem.nextBlock :=
  after?_invariant (I := fun c => c₀.state.mem.nextBlock ≤ c.state.mem.nextBlock) (Nat.le_refl _)
    (fun _ _ hle hnext => Nat.le_trans hle (frameStep_of_next? hnext).nextBlock_le) h

/-- Two functions that are entered in a run have different stack pointers. -/
theorem EntersAt.not_lt (h : m.EntersAt c₀ e func sp) (h' : m.EntersAt c₀ e' func sp) :
    ¬ e < e' := by
  intro hlt
  obtain ⟨c₁, c₂, -, hc₂, hsp, hnext⟩ := h.nextBlock
  obtain ⟨c₁', -, hc₁', -, hsp', -⟩ := h'.nextBlock
  -- The later frame lies behind the block that the earlier entry has taken.
  obtain ⟨c₃, hc₃, hrest⟩ := exists_after?_of_le hlt hc₁'
  rw [hc₂, Option.some.injEq] at hc₃
  subst hc₃
  have hle := nextBlock_le_of_after? hrest
  rw [hsp, Option.some.injEq] at hsp'
  rw [hnext, hsp'] at hle
  exact Nat.not_succ_le_self _ hle

/-- A frame is entered only once. -/
theorem EntersAt.unique (h : m.EntersAt c₀ e func sp) (h' : m.EntersAt c₀ e' func sp) : e = e' :=
  Nat.le_antisymm (Nat.not_lt.1 (h'.not_lt h)) (Nat.not_lt.1 (h.not_lt h'))

end Machine

end RegisterMachine
