import RegisterMachine.Proofs.Machine.Run
import RegisterMachine.Proofs.Environment.Loading

/-! # Frames

Every function that has been entered and not left owns a frame, a block of memory. A step enters a
function and allocates a frame, leaves one and frees its frame, or does nothing to frames. So the
live blocks are at all times those of the globals and those of the frames.

* `State.frames`, `State.frameBlocks` — the frames of a state, innermost first.
* `Environment.FrameAt` — a frame lies between the bounds that its function asks for.
* `FrameStep` — the three things that a step does to frames.
* `State.FrameDiscipline` — what is known of frames throughout a run.
* `State.FrameDiscipline.of_frameStep` — steps keep it.
-/

namespace RegisterMachine

variable {env : Environment} {addresses : ReturnAddresses} {f : Function} {sp : Value}
  {stack : CallStack} {mem mem' : Memory} {s s' : State} {b : BlockId}

/-! ## Entering and leaving -/

/-- A frame is entered by an allocation and two stores. -/
theorem Function.enterFrame_eq_ok_iff :
    f.enterFrame stack mem = .ok (sp, mem') ↔
      sp = f.frameSp mem.nextBlock ∧
        ∃ linked, (mem.alloc (-f.frameSize).toInt f.stackSize.toInt).2.storeSlot sp .int f.linkSlot
            stack.callerSp = .ok linked ∧
          linked.storeSlot sp .int f.returnSlot stack.callerRa = .ok mem' := by
  simp only [enterFrame, bind_eq_ok_iff, mapError_eq_ok_iff]
  constructor
  · rintro ⟨linked, hlink, mem'', hreturn, h⟩
    cases h
    exact ⟨rfl, linked, hlink, hreturn⟩
  · rintro ⟨rfl, linked, hlink, hreturn⟩
    exact ⟨linked, hlink, mem', hreturn, rfl⟩

/-- A frame cannot be entered where one of its reserved slots cannot be written. -/
theorem Function.exists_of_enterFrame_eq_error {e : Stuck}
    (h : f.enterFrame stack mem = .error e) :
    ∃ (m : Memory) (slot : Word) (v : Value) (e' : MemoryError), e = .memory e' ∧
      (mem.alloc (-f.frameSize).toInt f.stackSize.toInt).2.SameBounds m ∧
      (slot = f.linkSlot ∨ slot = f.returnSlot) ∧
      m.storeSlot (f.frameSp mem.nextBlock) .int slot v = .error e' := by
  simp only [enterFrame, bind_eq_error_iff, mapError_eq_error_iff, mapError_eq_ok_iff] at h
  rcases h with ⟨e', he, rfl⟩ | ⟨linked, hlink, ⟨e', he, rfl⟩ | ⟨_, _, h⟩⟩
  · exact ⟨_, _, _, e', rfl, .refl _, .inl rfl, he⟩
  · exact ⟨_, _, _, e', rfl, .of_storeSlot hlink, .inr rfl, he⟩
  · cases h

/-- A frame is left if its reserved slots hold what the caller's record says and its block is
freed. -/
theorem Function.releaseFrame_eq_ok_iff :
    f.releaseFrame sp stack mem = .ok mem' ↔
      mem.loadSlot sp .int f.linkSlot = .ok stack.callerSp ∧
        mem.loadSlot sp .int f.returnSlot = .ok stack.callerRa ∧
        ∃ b o, sp = .ptr b o ∧ mem.free b (-f.frameSize).toInt f.stackSize.toInt = .ok mem' := by
  simp only [releaseFrame, bind_eq_ok_iff, mapError_eq_ok_iff]
  constructor
  · rintro ⟨link, hlink, h⟩
    split at h
    · cases h
    · rename_i hlink'
      simp only [bind_eq_ok_iff, mapError_eq_ok_iff] at h
      obtain ⟨ra, hra, h⟩ := h
      split at h
      · cases h
      · rename_i hra'
        rw [← Decidable.not_not.1 hlink', ← Decidable.not_not.1 hra']
        refine ⟨hlink, hra, ?_⟩
        split at h
        · exact ⟨_, _, rfl, mapError_eq_ok_iff.1 h⟩
        · cases h
  · rintro ⟨hlink, hra, b, o, rfl, hfree⟩
    refine ⟨_, hlink, ?_⟩
    simp [hra, hfree, bind, Except.bind]

/-- A frame cannot be left where a reserved slot cannot be read or does not hold what the caller's
record says, or where the block cannot be freed. -/
theorem Function.cases_of_releaseFrame_eq_error {e : Stuck}
    (h : f.releaseFrame sp stack mem = .error e) :
    (∃ slot e', e = .memory e' ∧ (slot = f.linkSlot ∨ slot = f.returnSlot) ∧
        mem.loadSlot sp .int slot = .error e') ∨
      (∃ v w, e = .linkMismatch v w) ∨ (∃ v w, e = .returnAddressMismatch v w) ∨
      ∃ b o e', e = .memory e' ∧ sp = .ptr b o ∧
        mem.free b (-f.frameSize).toInt f.stackSize.toInt = .error e' := by
  simp only [releaseFrame, bind_eq_error_iff, mapError_eq_error_iff, mapError_eq_ok_iff] at h
  rcases h with ⟨e', he, rfl⟩ | ⟨link, hlink, h⟩
  · -- The link slot cannot be read.
    exact .inl ⟨_, e', rfl, .inl rfl, he⟩
  split at h
  · cases h
    exact .inr (.inl ⟨_, _, rfl⟩)
  simp only [bind_eq_error_iff, mapError_eq_error_iff, mapError_eq_ok_iff] at h
  rcases h with ⟨e', he, rfl⟩ | ⟨ra, hra, h⟩
  · -- The return-address slot cannot be read.
    exact .inl ⟨_, e', rfl, .inr rfl, he⟩
  split at h
  · cases h
    exact .inr (.inr (.inl ⟨_, _, rfl⟩))
  split at h
  · obtain ⟨e', he, rfl⟩ := mapError_eq_error_iff.1 h
    exact .inr (.inr (.inr ⟨_, _, e', rfl, rfl, he⟩))
  · -- The link slot was read, so the stack pointer is a pointer.
    rename_i hptr
    obtain ⟨b, o, rfl, -⟩ := Memory.loadSlot_eq_ok_iff.1 hlink
    exact absurd rfl (hptr b o)

/-! ## Frames of a state -/

/-- The block of a pointer. -/
def Value.block? : Value → Option BlockId
  | .ptr b _ => some b
  | _ => none

@[simp] theorem Function.block?_frameSp (f : Function) (b : BlockId) :
    (f.frameSp b).block? = some b := rfl

namespace State

/-- The function and the stack pointer of every frame, the innermost first. A function that is about
to be entered has no frame yet, and one that is about to return has none any more. -/
def frames (s : State) : List (BlockId × Value) :=
  match s.control with
  | .running func sp _ => (func, sp) :: s.stack.map fun a => (a.func, a.sp)
  | .calling _ | .returning => s.stack.map fun a => (a.func, a.sp)

/-- The blocks of the frames, the innermost first. -/
def frameBlocks (s : State) : List BlockId := s.frames.filterMap fun frame => frame.2.block?

/-- Whether the machine is about to execute an instruction. -/
def isRunning (s : State) : Bool :=
  match s.control with
  | .running _ _ _ => true
  | .calling _ | .returning => false

/-- There is a frame for each suspended caller, and one for the current function. -/
theorem length_frames (s : State) :
    s.frames.length = s.depth + if s.isRunning then 1 else 0 := by
  obtain ⟨control, stack, regs, mem⟩ := s
  cases control <;> simp [frames, depth, isRunning]

end State

/-- The frame of a function with code: the stack pointer points as far below zero as the frame is
large, and that is where the block begins. -/
structure Environment.FrameAt (env : Environment) (mem : Memory) (func : BlockId) (sp : Value)
    (f : Function) (b : BlockId) : Prop where
  /-- The function has code. -/
  function : env.function? func = some (.internal f)
  /-- The stack pointer is that of a fresh frame. -/
  sp_eq : sp = f.frameSp b
  /-- The block is live and has the size of the frame. -/
  bounds : mem.bounds? b =
    some ((-f.frameSize).toInt, max (-f.frameSize).toInt f.stackSize.toInt)

namespace Environment.FrameAt

variable {func : BlockId}

/-- The block of a frame is live. -/
theorem isLive (h : env.FrameAt mem func sp f b) : mem.isLive b = true := by
  rw [Memory.isLive_eq_isSome_bounds?, h.bounds]
  rfl

/-- The block of a frame is that of its stack pointer. -/
theorem block?_eq (h : env.FrameAt mem func sp f b) : sp.block? = some b := by
  rw [h.sp_eq, Function.block?_frameSp]

/-- A function has only one definition. -/
theorem function_eq {f' : Function} (h : env.FrameAt mem func sp f b)
    (function : env.function? func = some (.internal f')) : f' = f := by
  have hf := h.function
  rw [function, Option.some.injEq, FunctionDef.internal.injEq] at hf
  exact hf

/-- A stack pointer points into only one frame. -/
theorem block_eq {b' : BlockId} {o : Word} (h : env.FrameAt mem func (.ptr b' o) f b) : b' = b := by
  have hb := h.block?_eq
  rw [Value.block?, Option.some.injEq] at hb
  exact hb

/-- A frame stays where it is while its block keeps its bounds. -/
theorem of_bounds?_eq (h : env.FrameAt mem func sp f b) (hb : mem'.bounds? b = mem.bounds? b) :
    env.FrameAt mem' func sp f b :=
  ⟨h.function, h.sp_eq, hb.trans h.bounds⟩

/-- A frame is freed under the bounds with which it was allocated. -/
theorem free_isOk (h : env.FrameAt mem func sp f b) :
    ∃ mem', mem.free b (-f.frameSize).toInt f.stackSize.toInt = .ok mem' :=
  ⟨_, Memory.free_eq_ok_iff.2 ⟨h.bounds, rfl⟩⟩

/-- The bounds of a frame whose size has a negation are those sizes. -/
theorem exact_bounds (h : env.FrameAt mem func sp f b) (hsize : f.frameSize ≠ .intMin 32) :
    sp = .ptr b (-f.frameSize) ∧ (-f.frameSize).toInt = -f.frameSize.toInt ∧
      mem.bounds? b = some (-f.frameSize.toInt, max f.stackSize.toInt (-f.frameSize.toInt)) := by
  have hneg := BitVec.toInt_neg_of_ne_intMin hsize
  have hbounds := h.bounds
  rw [hneg, Int.max_comm] at hbounds
  exact ⟨h.sp_eq, hneg, hbounds⟩

end Environment.FrameAt

/-! ## What a step does to frames -/

variable (env) in
/-- A step does nothing to frames, or enters a function, or leaves one. -/
inductive FrameStep (s s' : State) : Prop where
  /-- Frames stay as they are, and so do the bounds of blocks. -/
  | keep (frames : s'.frames = s.frames) (same : s.mem.SameBounds s'.mem)
  /-- A frame is allocated for a function that is entered. -/
  | enter {f : Function} {callee : BlockId} (function : env.function? callee = some (.internal f))
      (frames : s'.frames = (callee, f.frameSp s.mem.nextBlock) :: s.frames)
      (same : (s.mem.alloc (-f.frameSize).toInt f.stackSize.toInt).2.SameBounds s'.mem)
  /-- The frame of the current function is freed. -/
  | leave {f : Function} {func b : BlockId} {o : Word}
      (function : env.function? func = some (.internal f))
      (frames : s.frames = (func, .ptr b o) :: s'.frames)
      (freed : s.mem.free b (-f.frameSize).toInt f.stackSize.toInt = .ok s'.mem)

namespace FrameStep

/-- Instructions leave the frame or do nothing to frames. -/
theorem of_executes {func : BlockId} {pc : Nat} {regs : RegisterFile} {i : Instruction}
    (function : env.function? func = some (.internal f))
    (h : Executes env addresses f func sp pc stack regs mem i s') :
    FrameStep env ⟨.running func sp pc, stack, regs, mem⟩ s' := by
  cases h with
  | label => exact .keep rfl (.refl _)
  | getStack read => exact .keep rfl (.refl _)
  | setStack written => exact .keep rfl (.of_storeSlot written)
  | getParam link read => exact .keep rfl (.refl _)
  | op result => exact .keep rfl (.refl _)
  | load address read => exact .keep rfl (.refl _)
  | store address written => exact .keep rfl (.of_storeAt written)
  | call resolved returns => exact .keep rfl (.refl _)
  | tailCall resolved released =>
    obtain ⟨-, -, b, o, rfl, hfree⟩ := Function.releaseFrame_eq_ok_iff.1 released
    exact .leave function rfl hfree
  | goto jump => exact .keep rfl (.refl _)
  | condTaken holds jump => exact .keep rfl (.refl _)
  | condPassed fails => exact .keep rfl (.refl _)
  | jumpTable index nonneg target jump => exact .keep rfl (.refl _)
  | ret released =>
    obtain ⟨-, -, b, o, rfl, hfree⟩ := Function.releaseFrame_eq_ok_iff.1 released
    exact .leave function rfl hfree

/-- Every silent step is one of the three kinds. -/
theorem of_silent (h : Silent env addresses s s') : FrameStep env s s' := by
  cases h with
  | execute function fetch executes => exact of_executes function executes
  | enter function entered =>
    obtain ⟨rfl, linked, hlink, hreturn⟩ := Function.enterFrame_eq_ok_iff.1 entered
    exact .enter function rfl
      ((Memory.SameBounds.of_storeSlot hlink).trans (.of_storeSlot hreturn))
  | resume => exact .keep rfl (.refl _)

/-- Every step of a machine is one of the three kinds. External calls do nothing to frames. -/
theorem of_takes {σ : Type} {m : Machine σ} {host host' : σ} {t : Transition}
    (h : m.Takes s host t host') : FrameStep m.env s t.state := by
  cases h with
  | silent step => exact of_silent step
  | external call arguments result =>
    obtain ⟨control, stack, regs, mem⟩ := s
    cases control with
    | running func sp pc => cases call
    | calling callee => exact .keep rfl (.refl _)
    | returning => cases call

/-- No step makes allocated blocks available again. -/
theorem nextBlock_le (h : FrameStep env s s') : s.mem.nextBlock ≤ s'.mem.nextBlock := by
  cases h with
  | keep frames same => exact Nat.le_of_eq same.nextBlock.symm
  | enter function frames same =>
    rw [same.nextBlock, Memory.nextBlock_alloc]
    exact Nat.le_succ _
  | leave function frames freed => exact Nat.le_of_eq (Memory.nextBlock_of_free freed).symm

/-- A block that was allocated before a step and is live after it was live before. -/
theorem isLive_of_isLive (h : FrameStep env s s') (hlt : b < s.mem.nextBlock)
    (hb : s'.mem.isLive b = true) : s.mem.isLive b = true := by
  cases h with
  | keep frames same => rwa [same.isLive_eq] at hb
  | enter function frames same =>
    rwa [same.isLive_eq, Memory.isLive_eq_isSome_bounds?, Memory.bounds?_alloc,
      if_neg (Nat.ne_of_lt hlt), ← Memory.isLive_eq_isSome_bounds?] at hb
  | leave function frames freed =>
    rw [Memory.isLive_eq_isSome_bounds?, Memory.bounds?_of_free freed] at hb
    split at hb
    · cases hb
    · rwa [Memory.isLive_eq_isSome_bounds?]

/-- A block that a step allocates is live after it. -/
theorem isLive_of_nextBlock_le (h : FrameStep env s s') (hle : s.mem.nextBlock ≤ b)
    (hlt : b < s'.mem.nextBlock) : s'.mem.isLive b = true := by
  cases h with
  | keep frames same =>
    rw [same.nextBlock] at hlt
    exact absurd hle (Nat.not_le.2 hlt)
  | enter function frames same =>
    rw [same.nextBlock, Memory.nextBlock_alloc] at hlt
    have heq : b = s.mem.nextBlock := Nat.le_antisymm (Nat.le_of_lt_succ hlt) hle
    rw [same.isLive_eq, Memory.isLive_eq_isSome_bounds?, Memory.bounds?_alloc, if_pos heq]
    rfl
  | leave function frames freed =>
    rw [Memory.nextBlock_of_free freed] at hlt
    exact absurd hle (Nat.not_le.2 hlt)

end FrameStep

/-! ## The discipline of frames -/

/-- What is known of frames throughout a run: they lie in blocks of their own, later ones in blocks
with greater numbers, and no blocks but those of globals and frames are live. -/
structure State.FrameDiscipline (env : Environment) (s : State) : Prop where
  /-- Every frame lies between the bounds that its function asks for. -/
  framed : ∀ frame ∈ s.frames, ∃ f b, env.FrameAt s.mem frame.1 frame.2 f b
  /-- The blocks of frames are in the order of their allocation. -/
  decreasing : s.frameBlocks.Pairwise (· > ·)
  /-- The blocks of frames are allocated after those of globals. -/
  above : ∀ b ∈ s.frameBlocks, env.globals.size < b
  /-- The blocks of globals have been allocated. -/
  globals_lt : env.globals.size < s.mem.nextBlock
  /-- The live blocks are those of globals and those of frames. -/
  live : ∀ b, s.mem.isLive b = true ↔ (0 < b ∧ b ≤ env.globals.size) ∨ b ∈ s.frameBlocks

namespace State.FrameDiscipline

/-- The discipline speaks of nothing but frames and the bounds of blocks. -/
theorem of_keep (h : s.FrameDiscipline env) (frames : s'.frames = s.frames)
    (same : s.mem.SameBounds s'.mem) : s'.FrameDiscipline env := by
  have hblocks : s'.frameBlocks = s.frameBlocks := by rw [frameBlocks, frames, frameBlocks]
  refine ⟨?_, hblocks ▸ h.decreasing, hblocks ▸ h.above, same.nextBlock ▸ h.globals_lt, fun b => ?_⟩
  · rw [frames]
    intro frame hframe
    obtain ⟨f, b, hat⟩ := h.framed frame hframe
    exact ⟨f, b, hat.of_bounds?_eq (same.bounds b)⟩
  · rw [same.isLive_eq, hblocks]
    exact h.live b

/-- A new frame lies in the next block, behind all other frames. -/
theorem of_enter {callee : BlockId} (h : s.FrameDiscipline env)
    (function : env.function? callee = some (.internal f))
    (frames : s'.frames = (callee, f.frameSp s.mem.nextBlock) :: s.frames)
    (same : (s.mem.alloc (-f.frameSize).toInt f.stackSize.toInt).2.SameBounds s'.mem) :
    s'.FrameDiscipline env := by
  have hblocks : s'.frameBlocks = s.mem.nextBlock :: s.frameBlocks := by
    rw [frameBlocks, frames]
    rfl
  have hlt : ∀ b ∈ s.frameBlocks, b < s.mem.nextBlock := by
    intro b hb
    exact Memory.lt_nextBlock_of_isLive ((h.live b).2 (.inr hb))
  have hnew : s'.mem.bounds? s.mem.nextBlock =
      some ((-f.frameSize).toInt, max (-f.frameSize).toInt f.stackSize.toInt) := by
    rw [same.bounds, Memory.bounds?_alloc, if_pos rfl]
  have hold : ∀ b, b ≠ s.mem.nextBlock → s'.mem.bounds? b = s.mem.bounds? b := by
    intro b hb
    rw [same.bounds, Memory.bounds?_alloc, if_neg hb]
  refine ⟨?_, ?_, ?_, ?_, fun b => ?_⟩
  · rw [frames]
    intro frame hframe
    rcases List.mem_cons.1 hframe with rfl | hframe
    · exact ⟨f, _, function, rfl, hnew⟩
    · -- The allocation does not touch the block of an older frame.
      obtain ⟨f', b, hat⟩ := h.framed frame hframe
      have hb := Memory.lt_nextBlock_of_isLive hat.isLive
      exact ⟨f', b, hat.of_bounds?_eq (hold b (Nat.ne_of_lt hb))⟩
  · rw [hblocks, List.pairwise_cons]
    exact ⟨hlt, h.decreasing⟩
  · rw [hblocks]
    intro b hb
    rcases List.mem_cons.1 hb with rfl | hb
    · exact h.globals_lt
    · exact h.above b hb
  · rw [same.nextBlock, Memory.nextBlock_alloc]
    exact Nat.lt_succ_of_lt h.globals_lt
  · rw [hblocks, List.mem_cons]
    by_cases hb : b = s.mem.nextBlock
    · -- The new block is live, and it is that of the new frame.
      subst hb
      simp [Memory.isLive_eq_isSome_bounds?, hnew]
    · rw [Memory.isLive_eq_isSome_bounds?, hold b hb, ← Memory.isLive_eq_isSome_bounds?, h.live]
      simp [hb]

/-- Without its innermost frame a state has the other frames, and one live block less. -/
theorem of_leave {func : BlockId} {o : Word} (h : s.FrameDiscipline env)
    (frames : s.frames = (func, .ptr b o) :: s'.frames)
    (freed : s.mem.free b (-f.frameSize).toInt f.stackSize.toInt = .ok s'.mem) :
    s'.FrameDiscipline env := by
  have hblocks : s.frameBlocks = b :: s'.frameBlocks := by
    rw [frameBlocks, frames]
    rfl
  have hdecreasing := h.decreasing
  rw [hblocks, List.pairwise_cons] at hdecreasing
  have hlt : ∀ b' ∈ s'.frameBlocks, b' < b := hdecreasing.1
  have habove : ∀ b' ∈ b :: s'.frameBlocks, env.globals.size < b' := hblocks ▸ h.above
  have hold : ∀ b', b' ≠ b → s'.mem.bounds? b' = s.mem.bounds? b' := by
    intro b' hb'
    rw [Memory.bounds?_of_free freed, if_neg hb']
  refine ⟨fun frame hframe => ?_, hdecreasing.2, fun b' hb' => habove b' (by simp [hb']), ?_,
    fun b' => ?_⟩
  · -- The blocks of the other frames come before the freed one.
    obtain ⟨f', b', hat⟩ := h.framed frame (by rw [frames]; exact List.mem_cons_of_mem _ hframe)
    have hb' : b' ∈ s'.frameBlocks := List.mem_filterMap.2 ⟨frame, hframe, hat.block?_eq⟩
    exact ⟨f', b', hat.of_bounds?_eq (hold b' (Nat.ne_of_lt (hlt b' hb')))⟩
  · rw [Memory.nextBlock_of_free freed]
    exact h.globals_lt
  · have hlive := h.live b'
    rw [hblocks, List.mem_cons] at hlive
    by_cases hb' : b' = b
    · -- The freed block is neither that of a global nor that of another frame.
      subst hb'
      have hglobal : ¬ b' ≤ env.globals.size := Nat.not_le.2 (habove b' (by simp))
      have hframe : b' ∉ s'.frameBlocks := fun hmem => Nat.lt_irrefl b' (hlt b' hmem)
      simp [Memory.isLive_eq_isSome_bounds?, Memory.bounds?_of_free freed, hglobal, hframe]
    · rw [Memory.isLive_eq_isSome_bounds?, hold b' hb', ← Memory.isLive_eq_isSome_bounds?, hlive]
      simp [hb']

/-- Steps keep the discipline of frames. -/
theorem of_frameStep (h : s.FrameDiscipline env) (hstep : FrameStep env s s') :
    s'.FrameDiscipline env := by
  cases hstep with
  | keep frames same => exact h.of_keep frames same
  | enter function frames same => exact h.of_enter function frames same
  | leave function frames freed => exact h.of_leave frames freed

/-- A run begins without frames: the live blocks are those of globals. -/
theorem of_startsAt {σ : Type} {p : Program} {m : Machine σ} (h : p.StartsAt m s) :
    s.FrameDiscipline m.env := by
  have hloads := Program.loads_of_load h.load
  have hsize : m.env.globals.size = p.globals.length := by rw [hloads.globals, List.size_toArray]
  obtain ⟨b, -, -, heq⟩ := h.eq
  have hframes : s.frames = [] := by
    rw [heq]
    rfl
  have hblocks : s.frameBlocks = [] := by rw [frameBlocks, hframes, List.filterMap_nil]
  refine ⟨by simp [hframes], by simp [hblocks], by simp [hblocks], ?_, fun b => ?_⟩
  · rw [hloads.nextBlock, hsize]
    exact Nat.lt_succ_self _
  · rw [hloads.isLive_iff, hsize, hblocks]
    simp

/-- The current function has a frame. -/
theorem frameAt {func : BlockId} {pc : Nat} {regs : RegisterFile}
    (h : State.FrameDiscipline env ⟨.running func sp pc, stack, regs, mem⟩)
    (function : env.function? func = some (.internal f)) : ∃ b, env.FrameAt mem func sp f b := by
  obtain ⟨f', b, hat⟩ := h.framed (func, sp) (by simp [frames])
  rw [hat.function_eq function]
  exact ⟨b, hat⟩

/-- Throughout a run the discipline of frames is kept. -/
theorem of_reached {σ : Type} {p : Program} {m : Machine σ} {c : Configuration σ}
    (h : m.Reached p c) : c.state.FrameDiscipline m.env :=
  h.invariant (fun _ => of_startsAt) fun _ _ _ _ _ hs htakes =>
    hs.of_frameStep (.of_takes htakes)

end State.FrameDiscipline

end RegisterMachine
