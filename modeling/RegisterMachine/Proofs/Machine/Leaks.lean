import RegisterMachine.Proofs.Machine.Frames

/-! # Leaks

The discipline of frames accounts for every block of memory. The live blocks can be counted, a frame
is never freed under bounds that are not its own, and a block that has been freed is never live
again, so each frame is freed once.

* `Memory.liveBlocks` — the live blocks, in the order of their allocation.
* `State.FrameDiscipline.length_liveBlocks` — one for each global and one for each frame.
* `State.FrameDiscipline.step_ne_badFree` — no step frees a block under wrong bounds.
* `Machine.FreesAt` — a step of a run frees a block.
* `Machine.frames_disciplined` — frames neither leak nor are freed twice.
-/

namespace RegisterMachine

variable {env : Environment} {addresses : ReturnAddresses} {f : Function} {sp : Value}
  {stack : CallStack} {mem mem' : Memory} {s s' : State} {b : BlockId} {lo hi : Int}

/-! ## Live blocks -/

/-- The live blocks, in the order of their allocation. -/
def Memory.liveBlocks (m : Memory) : List BlockId := (List.range m.nextBlock).filter m.isLive

/-- Every live block is one of them. -/
theorem Memory.mem_liveBlocks_iff : b ∈ mem.liveBlocks ↔ mem.isLive b = true := by
  rw [liveBlocks, List.mem_filter, List.mem_range]
  exact ⟨fun h => h.2, fun h => ⟨lt_nextBlock_of_isLive h, h⟩⟩

/-- No live block is counted twice. -/
theorem Memory.nodup_liveBlocks (m : Memory) : m.liveBlocks.Nodup :=
  List.nodup_range.filter _

namespace State.FrameDiscipline

/-- There are as many blocks of frames as there are frames. -/
theorem length_frameBlocks (h : s.FrameDiscipline env) :
    s.frameBlocks.length = s.frames.length := by
  rw [frameBlocks, List.filterMap_length_eq_length]
  intro frame hframe
  obtain ⟨f, b, hat⟩ := h.framed frame hframe
  rw [hat.block?_eq]
  rfl

/-- The live blocks are those of globals and, apart from these, those of frames. -/
theorem liveBlocks_perm (h : s.FrameDiscipline env) :
    s.mem.liveBlocks.Perm (List.range' 1 env.globals.size ++ s.frameBlocks) := by
  have hframes : s.frameBlocks.Nodup := h.decreasing.imp fun hlt heq => by
    subst heq
    exact Nat.lt_irrefl _ hlt
  refine (List.perm_ext_iff_of_nodup s.mem.nodup_liveBlocks ?_).2 fun b => ?_
  · rw [List.nodup_append]
    refine ⟨List.nodup_range', hframes, fun b hb b' hb' heq => ?_⟩
    subst heq
    have hle := (List.mem_range'_1.1 hb).2
    have hlt := h.above b hb'
    omega
  · rw [Memory.mem_liveBlocks_iff, h.live, List.mem_append, List.mem_range'_1,
      Nat.add_comm 1, Nat.lt_succ_iff]
    rfl

/-- There is one live block for each global and one for each frame. -/
theorem length_liveBlocks (h : s.FrameDiscipline env) :
    s.mem.liveBlocks.length = env.globals.size + s.depth + if s.isRunning then 1 else 0 := by
  rw [h.liveBlocks_perm.length_eq, List.length_append, List.length_range', h.length_frameBlocks,
    length_frames, Nat.add_assoc]

end State.FrameDiscipline

/-! ## Bounds under which blocks are freed -/

/-- Whether memory refused to free a block under bounds that are not its own. -/
def MemoryError.IsBadFree : MemoryError → Prop
  | .badFree _ _ _ => True
  | _ => False

namespace Memory

variable {c : Chunk} {offset : Int} {v : Value} {t : DataType} {slot : Word} {e : MemoryError}

/-- A refused access frees nothing. -/
theorem not_isBadFree_of_accessError? {r : Region} (h : accessError? r c b offset = some e) :
    ¬ e.IsBadFree := by
  unfold accessError? at h
  split at h
  · cases h
    exact id
  · split at h
    · cases h
      exact id
    · cases h

/-- A refused load frees nothing. -/
theorem not_isBadFree_of_loadAt {a : Value} (h : mem.loadAt c a = .error e) : ¬ e.IsBadFree := by
  unfold loadAt load at h
  split at h
  · split at h
    · cases h
      exact id
    · split at h
      · rename_i hr
        cases h
        exact not_isBadFree_of_accessError? hr
      · cases h
  · cases h
    exact id

/-- A refused store frees nothing. -/
theorem not_isBadFree_of_storeAt {a : Value} (h : mem.storeAt c a v = .error e) :
    ¬ e.IsBadFree := by
  unfold storeAt store at h
  split at h
  · split at h
    · cases h
      exact id
    · rename_i hr
      cases h
      obtain ⟨r, -, hr⟩ := Option.map_eq_some_iff.1 hr
      exact not_isBadFree_of_accessError? hr
    · cases h
  · cases h
    exact id

/-- What is no pointer has no slots. -/
theorem not_isBadFree_of_slotAddress (h : slotAddress sp slot = .error e) : ¬ e.IsBadFree := by
  unfold slotAddress at h
  split at h
  · cases h
  · cases h
    exact id

/-- A refused load of a slot frees nothing. -/
theorem not_isBadFree_of_loadSlot (h : mem.loadSlot sp t slot = .error e) : ¬ e.IsBadFree := by
  rcases bind_eq_error_iff.1 h with h | ⟨a, -, h⟩
  · exact not_isBadFree_of_slotAddress h
  · exact not_isBadFree_of_loadAt h

/-- A refused store into a slot frees nothing. -/
theorem not_isBadFree_of_storeSlot (h : mem.storeSlot sp t slot v = .error e) :
    ¬ e.IsBadFree := by
  rcases bind_eq_error_iff.1 h with h | ⟨a, -, h⟩
  · exact not_isBadFree_of_slotAddress h
  · exact not_isBadFree_of_storeAt h

end Memory

/-- Gathering arguments frees nothing. -/
theorem Convention.not_isBadFree_of_arguments {conv : Convention} {sig : Signature}
    {regs : RegisterFile} {e : MemoryError} (h : conv.arguments sig regs mem sp = .error e) :
    ¬ e.IsBadFree := by
  obtain ⟨loc, -, hloc⟩ := exists_mem_of_mapM_eq_error h
  cases loc with
  | register r => cases hloc
  | outgoing slot t => exact Memory.not_isBadFree_of_loadSlot hloc

/-- Finding the target of a call does not touch memory. -/
theorem Environment.resolve_ne_memory {regs : RegisterFile} {callee : Callee} {e : MemoryError} :
    env.resolve regs callee ≠ .error (.memory e) := by
  cases callee with
  | register r =>
    simp only [resolve]
    split <;> simp
  | symbol name =>
    simp only [resolve]
    split
    · simp
    · split <;> simp

/-- A branch does not touch memory. -/
theorem Function.jump_ne_memory {l : Label} {e : MemoryError} : f.jump l ≠ .error (.memory e) := by
  unfold jump
  split <;> simp

/-- Finding the current function does not touch memory. -/
theorem Environment.internal_ne_memory {e : MemoryError} :
    env.internal b ≠ .error (.memory e) := by
  unfold internal
  split <;> simp

namespace State.FrameDiscipline

variable {func : BlockId} {pc : Nat} {regs : RegisterFile} {e : MemoryError}

/-- The frame of the current function is not freed under wrong bounds. -/
theorem not_isBadFree_of_releaseFrame
    (h : State.FrameDiscipline env ⟨.running func sp pc, stack, regs, mem⟩)
    (function : env.function? func = some (.internal f))
    (released : f.releaseFrame sp stack mem = .error (.memory e)) : ¬ e.IsBadFree := by
  rcases Function.cases_of_releaseFrame_eq_error released with ⟨slot, e', heq, -, hslot⟩ |
    ⟨_, _, heq⟩ | ⟨_, _, heq⟩ | ⟨b, o, e', heq, hsp, hfree⟩
  · cases heq
    exact Memory.not_isBadFree_of_loadSlot hslot
  · cases heq
  · cases heq
  · -- The block is that of the frame, which can be freed.
    subst hsp
    obtain ⟨b', hat⟩ := h.frameAt function
    obtain ⟨mem', hok⟩ := hat.free_isOk
    rw [← hat.block_eq, hfree] at hok
    cases hok

/-- No instruction frees a block under wrong bounds. -/
theorem not_isBadFree_of_refuses {i : Instruction}
    (h : State.FrameDiscipline env ⟨.running func sp pc, stack, regs, mem⟩)
    (function : env.function? func = some (.internal f))
    (refuses : Refuses env addresses f func sp pc stack regs mem i (.memory e)) :
    ¬ e.IsBadFree := by
  cases refuses with
  | getStack read => exact Memory.not_isBadFree_of_loadSlot read
  | setStack written => exact Memory.not_isBadFree_of_storeSlot written
  | getParamLink link => exact Memory.not_isBadFree_of_loadSlot link
  | getParam link read => exact Memory.not_isBadFree_of_loadSlot read
  | load address read => exact Memory.not_isBadFree_of_loadAt read
  | store address written => exact Memory.not_isBadFree_of_storeAt written
  | call resolved => exact absurd resolved Environment.resolve_ne_memory
  | tailCall resolved => exact absurd resolved Environment.resolve_ne_memory
  | tailCallRelease resolved released => exact h.not_isBadFree_of_releaseFrame function released
  | goto jump => exact absurd jump Function.jump_ne_memory
  | condJump holds jump => exact absurd jump Function.jump_ne_memory
  | jumpTable index nonneg target jump => exact absurd jump Function.jump_ne_memory
  | ret released => exact h.not_isBadFree_of_releaseFrame function released

/-- No step frees a block under wrong bounds. -/
theorem not_isBadFree_of_fails {σ : Type} {m : Machine σ} {host : σ}
    (h : s.FrameDiscipline m.env) (fails : m.Fails s host (.memory e)) : ¬ e.IsBadFree := by
  cases fails with
  | blocked blocked =>
    cases blocked with
    | execute function fetch refuses => exact h.not_isBadFree_of_refuses function refuses
    | function internal => exact absurd internal Environment.internal_ne_memory
    | enter function entered =>
      obtain ⟨m', slot, v, e', heq, -, -, hstore⟩ :=
        Function.exists_of_enterFrame_eq_error entered
      cases heq
      exact Memory.not_isBadFree_of_storeSlot hstore
  | arguments call arguments => exact Convention.not_isBadFree_of_arguments arguments

/-- No step ends with a block that is freed under wrong bounds. -/
theorem step_ne_badFree {σ : Type} {m : Machine σ} {host : σ} (h : s.FrameDiscipline m.env)
    (b : BlockId) (lo hi : Int) : (m.step s host).1 ≠ .error (.memory (.badFree b lo hi)) := by
  intro hstep
  exact h.not_isBadFree_of_fails (.of_step (Prod.ext hstep rfl)) trivial

end State.FrameDiscipline

/-! ## How often a block is freed -/

namespace Machine

variable {σ : Type} {m : Machine σ} {p : Program} {c c' c₀ : Configuration σ} {n k j : Nat}

/-- A run frees a block with its step number `k`: the block is live before the step and is not live
after it. -/
def FreesAt (m : Machine σ) (c : Configuration σ) (k : Nat) (b : BlockId) : Prop :=
  ∃ c₁ c₂, m.after? c k = some c₁ ∧ m.next? c₁ = some c₂ ∧ c₁.state.mem.isLive b = true ∧
    c₂.state.mem.isLive b = false

/-- The step to the next configuration does one of three things to frames. -/
theorem frameStep_of_next? (h : m.next? c = some c') : FrameStep m.env c.state c'.state := by
  obtain ⟨events, htakes⟩ := next?_eq_some_iff.1 h
  exact .of_takes htakes

/-- A block that has been allocated and is not live stays so for the rest of a run. -/
theorem isLive_eq_false_of_after? (hlt : b < c.state.mem.nextBlock)
    (hdead : c.state.mem.isLive b = false) (h : m.after? c n = some c') :
    b < c'.state.mem.nextBlock ∧ c'.state.mem.isLive b = false := by
  refine after?_invariant
    (I := fun c => b < c.state.mem.nextBlock ∧ c.state.mem.isLive b = false) ⟨hlt, hdead⟩ ?_ h
  rintro c₁ c₂ ⟨hlt, hdead⟩ hnext
  -- No step brings a block back to life.
  have hstep := frameStep_of_next? hnext
  refine ⟨Nat.lt_of_lt_of_le hlt hstep.nextBlock_le, Bool.eq_false_iff.2 fun hlive => ?_⟩
  rw [hstep.isLive_of_isLive hlt hlive] at hdead
  cases hdead

/-- A block that a run has freed is not live later in the run. -/
theorem FreesAt.isLive_eq_false (hfrees : m.FreesAt c₀ k b) (hk : k < n)
    (h : m.after? c₀ n = some c) : c.state.mem.isLive b = false := by
  obtain ⟨c₁, c₂, hc₁, hnext, hlive, hdead⟩ := hfrees
  obtain ⟨c₂', hc₂, hrest⟩ := exists_after?_of_le (Nat.succ_le_of_lt hk) h
  obtain rfl : c₂' = c₂ := by
    have hsucc := after?_succ_eq_some_iff.2 ⟨c₁, hc₁, hnext⟩
    rw [hc₂] at hsucc
    exact Option.some.inj hsucc
  have hlt : b < c₂'.state.mem.nextBlock := Nat.lt_of_lt_of_le
    (Memory.lt_nextBlock_of_isLive hlive) (frameStep_of_next? hnext).nextBlock_le
  exact (isLive_eq_false_of_after? hlt hdead hrest).2

/-- A run frees a block at most once. -/
theorem FreesAt.unique (hj : m.FreesAt c₀ j b) (hk : m.FreesAt c₀ k b) : j = k := by
  obtain ⟨c₁, -, hc₁, -, hlive₁, -⟩ := id hj
  obtain ⟨c₂, -, hc₂, -, hlive₂, -⟩ := id hk
  rcases Nat.lt_trichotomy j k with hlt | heq | hlt
  · rw [hj.isLive_eq_false hlt hc₂] at hlive₂
    cases hlive₂
  · exact heq
  · rw [hk.isLive_eq_false hlt hc₁] at hlive₁
    cases hlive₁

/-- A block that a run has allocated and that is not live has been freed in the run. -/
theorem exists_freesAt (hle : c₀.state.mem.nextBlock ≤ b) (h : m.after? c₀ n = some c)
    (hlt : b < c.state.mem.nextBlock) (hdead : c.state.mem.isLive b = false) :
    ∃ k < n, m.FreesAt c₀ k b := by
  induction n generalizing c with
  | zero =>
    cases h
    exact absurd hle (Nat.not_le.2 hlt)
  | succ n ih =>
    obtain ⟨c₁, hc₁, hnext⟩ := after?_succ_eq_some_iff.1 h
    have hstep := frameStep_of_next? hnext
    by_cases hlt₁ : b < c₁.state.mem.nextBlock
    · cases hlive : c₁.state.mem.isLive b with
      | true =>
        -- The last step has freed the block.
        exact ⟨n, Nat.lt_succ_self n, c₁, c, hc₁, hnext, hlive, hdead⟩
      | false =>
        obtain ⟨k, hk, hfrees⟩ := ih hc₁ hlt₁ hlive
        exact ⟨k, Nat.lt_succ_of_lt hk, hfrees⟩
    · -- The last step has allocated the block, so it is live.
      rw [hstep.isLive_of_nextBlock_le (Nat.not_lt.1 hlt₁) hlt] at hdead
      cases hdead

/-- No run frees the block of a global. -/
theorem FreesAt.lt_of_reached (hfrees : m.FreesAt c₀ k b) (h : m.Reached p c₀) :
    m.env.globals.size < b := by
  obtain ⟨c₁, c₂, hc₁, hnext, hlive, hdead⟩ := hfrees
  have hreached : m.Reached p c₁ :=
    after?_invariant h (fun _ _ h hnext => h.next hnext) hc₁
  have hglobal : ∀ b, 0 < b ∧ b ≤ m.env.globals.size → c₂.state.mem.isLive b = true :=
    fun b hb => ((State.FrameDiscipline.of_reached (hreached.next hnext)).live b).2 (.inl hb)
  -- After the step that frees it the block would have to be live.
  apply Nat.not_le.1
  intro hle
  rw [hglobal b ⟨Memory.pos_of_isLive hlive, hle⟩] at hdead
  cases hdead

/-- Frames neither leak nor are freed twice. After any number of steps of a run, whatever the
program, the machine and the external calls:

* every frame lies in a block of its own between the bounds of its function, later frames in later
  blocks, and the live blocks are those of the globals and of the frames;
* so there is one live block for each global, each suspended caller and the current function;
* the next step does not free a block under wrong bounds;
* a block that the run has allocated is live exactly if the run has not freed it, and no block is
  freed twice;
* the blocks of globals are never freed, and once the run has ended only these are live. -/
theorem frames_disciplined {s₀ : State} {host₀ : σ} (start : p.StartsAt m s₀)
    (run : m.after? ⟨s₀, host₀⟩ n = some c) :
    c.state.FrameDiscipline m.env ∧
    (∀ func sp f b, m.env.FrameAt c.state.mem func sp f b → f.frameSize ≠ .intMin 32 →
      sp = .ptr b (-f.frameSize) ∧ (-f.frameSize).toInt = -f.frameSize.toInt ∧
      c.state.mem.bounds? b =
        some (-f.frameSize.toInt, max f.stackSize.toInt (-f.frameSize.toInt))) ∧
    c.state.mem.liveBlocks.length =
      p.globals.length + c.state.depth + (if c.state.isRunning then 1 else 0) ∧
    (∀ b lo hi, (m.step c.state c.host).1 ≠ .error (.memory (.badFree b lo hi))) ∧
    (∀ b, p.globals.length < b → b < c.state.mem.nextBlock →
      (c.state.mem.isLive b = false ↔ ∃ k < n, m.FreesAt ⟨s₀, host₀⟩ k b)) ∧
    (∀ j k b, m.FreesAt ⟨s₀, host₀⟩ j b → m.FreesAt ⟨s₀, host₀⟩ k b → j = k) ∧
    (∀ k b, m.FreesAt ⟨s₀, host₀⟩ k b → p.globals.length < b) ∧
    (c.state.isFinal = true →
      ∀ b, c.state.mem.isLive b = true ↔ 0 < b ∧ b ≤ p.globals.length) := by
  have hreached : m.Reached p c := ⟨s₀, host₀, n, start, run⟩
  have hframes : c.state.FrameDiscipline m.env := .of_reached hreached
  have hloads := Program.loads_of_load start.load
  have hsize : m.env.globals.size = p.globals.length := by rw [hloads.globals, List.size_toArray]
  refine ⟨hframes, ?_, ?_, hframes.step_ne_badFree, ?_, ?_, ?_, ?_⟩
  · intro func sp f b hat
    exact hat.exact_bounds
  · rw [hframes.length_liveBlocks, hsize]
  · intro b hlt hnext
    constructor
    · intro hdead
      refine exists_freesAt ?_ run hnext hdead
      rw [hloads.nextBlock]
      exact hlt
    · rintro ⟨k, hk, hfrees⟩
      exact hfrees.isLive_eq_false hk run
  · intro j k b hj hk
    exact hj.unique hk
  · intro k b hfrees
    rw [← hsize]
    exact hfrees.lt_of_reached (.start start host₀)
  · intro hfinal b
    obtain ⟨hcontrol, hstack⟩ := State.isFinal_iff.1 hfinal
    have hnone : c.state.frameBlocks = [] := by
      rw [State.frameBlocks, State.frames, hcontrol, hstack]
      rfl
    rw [hframes.live, hnone, hsize]
    simp

/-- After four steps of `Program.printSeven` the function that prints has a frame above that of the
entry point: there are three globals and two frames. -/
theorem frames_disciplined_printSeven : ∃ c : Configuration Unit,
    Program.printSeven.StartsAt Machine.printSeven State.printSeven ∧
    Machine.printSeven.after? ⟨State.printSeven, ()⟩ 4 = some c ∧
    c.state.FrameDiscipline Machine.printSeven.env ∧ c.state.mem.liveBlocks.length = 3 + 1 + 1 := by
  have hsome : (Machine.printSeven.after? ⟨State.printSeven, ()⟩ 4).isSome = true := by
    decide +kernel
  obtain ⟨c, hc⟩ := Option.isSome_iff_exists.1 hsome
  have hshape : (Machine.printSeven.after? ⟨State.printSeven, ()⟩ 4).map
      (fun c => (c.state.depth, c.state.isRunning)) = some (1, true) := by
    decide +kernel
  rw [hc, Option.map_some, Option.some.injEq, Prod.mk.injEq] at hshape
  have hmain := frames_disciplined Program.startsAt_printSeven hc
  refine ⟨c, Program.startsAt_printSeven, hc, hmain.1, ?_⟩
  rw [hmain.2.2.1, hshape.1, hshape.2]
  rfl

end Machine

end RegisterMachine
