import RegisterMachine.Proofs.Machine.Progress

/-! # Calls and returns

Only calls and returns change the stack of suspended callers, each by one record on top. So between
a call and the return to it the stack of the caller lies untouched below, and the return finds it as
it was. With return addresses by position, a record names the place of its call.

* `StackStep` — the three things that a step does to the stack.
* `StackStep.depth_eq_succ_iff`, `StackStep.succ_depth_eq_iff` — when the stack grows and shrinks.
* `Machine.suffix_stack_of_after?` — the stack below a call, up to the return.
* `Machine.eq_of_depth_eq` — the state in which the caller goes on.
* `Activation.AtCall` — a record names a call, and `Machine.Reached.atCall`.
* `Machine.calls_bracketed` — calls and returns match.
-/

namespace RegisterMachine

variable {env : Environment} {addresses : ReturnAddresses} {f : Function} {func : BlockId}
  {sp ra : Value} {pc : Nat} {stack : CallStack} {regs : RegisterFile} {mem : Memory}
  {i : Instruction} {s s' : State} {a : Activation}

/-! ## What a step does to the stack -/

/-- Whether a state is about to execute a call. -/
def State.IsCall (env : Environment) (s : State) : Prop :=
  ∃ callee, s.instruction? env = some (.call callee)

variable (env addresses) in
/-- A step suspends the current function, lets the innermost caller go on, or leaves the stack
alone. -/
inductive StackStep (s s' : State) : Prop where
  /-- A call suspends the current function behind it. -/
  | call {f : Function} {func : BlockId} {sp ra : Value} {pc : Nat} {callee : Callee}
      (control : s.control = .running func sp pc)
      (function : env.function? func = some (.internal f))
      (fetch : f.code[pc]? = some (.call callee))
      (returns : addresses func f (f.code.size - (pc + 1)) = some ra)
      (stack : s'.stack = ⟨func, sp, ra, pc + 1⟩ :: s.stack)
  /-- The innermost caller goes on. -/
  | resume {a : Activation} (control : s.control = .returning) (stack : s.stack = a :: s'.stack)
      (next : s'.control = .running a.func a.sp a.pc)
  /-- The stack stays as it is. -/
  | keep (notCall : ¬ s.IsCall env) (control : s.control ≠ .returning)
      (stack : s'.stack = s.stack)

namespace StackStep

/-- Of all instructions only calls change the stack. -/
theorem of_executes (function : env.function? func = some (.internal f))
    (fetch : f.code[pc]? = some i)
    (h : Executes env addresses f func sp pc stack regs mem i s') :
    StackStep env addresses ⟨.running func sp pc, stack, regs, mem⟩ s' := by
  have hinstr : State.instruction? env ⟨.running func sp pc, stack, regs, mem⟩ = some i :=
    (State.instruction?_running function).trans fetch
  have hkeep : (∀ callee, i ≠ .call callee) → s'.stack = stack →
      StackStep env addresses ⟨.running func sp pc, stack, regs, mem⟩ s' := by
    intro hcall hstack
    refine .keep ?_ nofun hstack
    rintro ⟨callee, heq⟩
    exact hcall callee (Option.some.inj (hinstr.symm.trans heq))
  cases h with
  | call resolved returns => exact .call rfl function fetch returns rfl
  | label => exact hkeep nofun rfl
  | getStack read => exact hkeep nofun rfl
  | setStack written => exact hkeep nofun rfl
  | getParam link read => exact hkeep nofun rfl
  | op result => exact hkeep nofun rfl
  | load address read => exact hkeep nofun rfl
  | store address written => exact hkeep nofun rfl
  | tailCall resolved released => exact hkeep nofun rfl
  | goto jump => exact hkeep nofun rfl
  | condTaken holds jump => exact hkeep nofun rfl
  | condPassed fails => exact hkeep nofun rfl
  | jumpTable index nonneg target jump => exact hkeep nofun rfl
  | ret released => exact hkeep nofun rfl

/-- Every step of a machine is one of the three kinds. Entering a function and calling an external
one leave the stack alone. -/
theorem of_takes {σ : Type} {m : Machine σ} {host host' : σ} {t : Transition}
    (h : m.Takes s host t host') : StackStep m.env m.returnAddress s t.state := by
  cases h with
  | silent step =>
    cases step with
    | execute function fetch executes => exact of_executes function fetch executes
    | enter function entered => exact .keep (fun ⟨_, h⟩ => nomatch h) nofun rfl
    | resume => exact .resume rfl rfl rfl
  | external call arguments result =>
    obtain ⟨b, hb, -⟩ := Environment.exists_of_externalCall? call
    refine .keep ?_ (by simp [hb]) rfl
    rintro ⟨callee, hinstr⟩
    simp [State.instruction?, hb] at hinstr

/-- A call suspends one caller more. -/
theorem depth_eq_succ_iff (h : StackStep env addresses s s') :
    s'.depth = s.depth + 1 ↔ s.IsCall env := by
  cases h with
  | call control function fetch returns stack =>
    rename_i callee
    have hcall : s.IsCall env :=
      ⟨callee, by simp only [State.instruction?, control, function, fetch]⟩
    simp [State.depth, stack, hcall]
  | resume control stack next =>
    have hcall : ¬ s.IsCall env := by
      rintro ⟨callee, hinstr⟩
      simp [State.instruction?, control] at hinstr
    simp only [State.depth, stack, List.length_cons, hcall, iff_false]
    omega
  | keep notCall control stack => simp [State.depth, stack, notCall]

/-- A return that is not the last one takes one caller off. -/
theorem succ_depth_eq_iff (h : StackStep env addresses s s') :
    s'.depth + 1 = s.depth ↔ s.control = .returning ∧ s.isFinal = false := by
  cases h with
  | call control function fetch returns stack =>
    simp only [State.depth, stack, List.length_cons, control, reduceCtorEq, false_and, iff_false]
    omega
  | resume control stack next =>
    have hfinal : s.isFinal = false := by
      rw [Bool.eq_false_iff, ne_eq, State.isFinal_iff, stack]
      simp
    simp [State.depth, stack, control, hfinal]
  | keep notCall control stack => simp [State.depth, stack, control]

/-- All other steps leave the depth as it is. -/
theorem depth_eq_iff (h : StackStep env addresses s s') :
    s'.depth = s.depth ↔
      ¬ s.IsCall env ∧ ¬ (s.control = .returning ∧ s.isFinal = false) := by
  rw [← h.depth_eq_succ_iff, ← h.succ_depth_eq_iff]
  constructor
  · intro heq
    omega
  · rintro ⟨hcall, hreturn⟩
    cases h with
    | call control function fetch returns stack =>
      exact absurd (by simp [State.depth, stack]) hcall
    | resume control stack next => exact absurd (by simp [State.depth, stack]) hreturn
    | keep notCall control stack => rw [State.depth, stack, State.depth]

/-- Records stay below a stack unless the last of them goes on. -/
theorem suffix_or_resume (h : StackStep env addresses s s') (hsuffix : a :: stack <:+ s.stack) :
    a :: stack <:+ s'.stack ∨
      s'.stack = stack ∧ s'.control = .running a.func a.sp a.pc := by
  cases h with
  | call control function fetch returns hstack =>
    rw [hstack]
    exact .inl (hsuffix.trans (List.suffix_cons _ _))
  | resume control hstack next =>
    rw [hstack] at hsuffix
    rcases List.suffix_cons_iff.1 hsuffix with heq | hsuffix
    · cases heq
      exact .inr ⟨rfl, next⟩
    · exact .inl hsuffix
  | keep notCall control hstack =>
    rw [hstack]
    exact .inl hsuffix

end StackStep

/-! ## From a call to its return -/

namespace Machine

variable {σ : Type} {m : Machine σ} {p : Program} {c c' c₁ : Configuration σ} {k : Nat}

/-- The step to the next configuration does one of three things to the stack. -/
theorem stackStep_of_next? (h : m.next? c = some c') :
    StackStep m.env m.returnAddress c.state c'.state := by
  obtain ⟨events, htakes⟩ := next?_eq_some_iff.1 h
  exact .of_takes htakes

/-- Records lie below the stack throughout a run that does not come back to the depth below them. -/
theorem suffix_stack_of_after? (hsuffix : a :: stack <:+ c₁.state.stack)
    (h : m.after? c₁ k = some c')
    (hdeep : ∀ j cj, j ≤ k → m.after? c₁ j = some cj → cj.state.depth ≠ stack.length) :
    a :: stack <:+ c'.state.stack := by
  induction k generalizing c' with
  | zero =>
    cases h
    exact hsuffix
  | succ k ih =>
    obtain ⟨c₂, hc₂, hnext⟩ := after?_succ_eq_some_iff.1 h
    have hbefore := ih hc₂ fun j cj hj => hdeep j cj (Nat.le_succ_of_le hj)
    rcases (stackStep_of_next? hnext).suffix_or_resume hbefore with hafter | ⟨hstack, -⟩
    · exact hafter
    · -- The record went on, so the run is back at the depth below it.
      exact absurd (congrArg List.length hstack) (hdeep (k + 1) c' (Nat.le_refl _) h)

/-- The first configuration that is back at the depth below a record is the one in which the record
goes on. -/
theorem eq_of_depth_eq (hsuffix : a :: stack <:+ c₁.state.stack) (h : m.after? c₁ k = some c')
    (hback : c'.state.depth = stack.length)
    (hdeep : ∀ j cj, j < k → m.after? c₁ j = some cj → cj.state.depth ≠ stack.length) :
    c'.state.control = .running a.func a.sp a.pc ∧ c'.state.stack = stack := by
  have hshort : ¬ a :: stack <:+ c'.state.stack := by
    intro hsuffix'
    have hle := hsuffix'.length_le
    rw [List.length_cons, ← hback] at hle
    exact Nat.not_succ_le_self _ hle
  cases k with
  | zero =>
    cases h
    exact absurd hsuffix hshort
  | succ k =>
    obtain ⟨c₂, hc₂, hnext⟩ := after?_succ_eq_some_iff.1 h
    have hbefore := suffix_stack_of_after? hsuffix hc₂ fun j cj hj =>
      hdeep j cj (Nat.lt_succ_of_le hj)
    rcases (stackStep_of_next? hnext).suffix_or_resume hbefore with hafter | ⟨hstack, hcontrol⟩
    · exact absurd hafter hshort
    · exact ⟨hcontrol, hstack⟩

end Machine

/-! ## Call sites -/

/-- A record names a call: the caller goes on behind it, with the return address of the call. -/
def Activation.AtCall (env : Environment) (addresses : ReturnAddresses) (a : Activation) : Prop :=
  ∃ pc f callee, a.pc = pc + 1 ∧ env.function? a.func = some (.internal f) ∧
    f.code[pc]? = some (.call callee) ∧ addresses a.func f (f.code.size - (pc + 1)) = some a.ra

/-- The return address by position of a call points to the position behind it. -/
theorem ReturnAddresses.codeOffset_eq_some {b : BlockId} (hi : f.code[pc]? = some i)
    (h : codeOffset b f (f.code.size - (pc + 1)) = some ra) :
    ∃ o : Word, ra = .ptr b o ∧ o.toInt = (pc + 1 : Nat) := by
  have hlt : pc < f.code.size := (Array.getElem?_eq_some_iff.1 hi).1
  have hoffset : f.code.size - (f.code.size - (pc + 1)) = pc + 1 := by omega
  rw [codeOffset, if_pos (Nat.sub_le _ _), hoffset, Option.map_eq_some_iff] at h
  obtain ⟨o, ho, rfl⟩ := h
  exact ⟨o, rfl, Word.toInt_of_ofInt? ho⟩

/-- With return addresses by position a record points behind its call. -/
theorem Activation.AtCall.ra_eq (h : a.AtCall env .codeOffset) :
    ∃ o : Word, a.ra = .ptr a.func o ∧ o.toInt = a.pc := by
  obtain ⟨pc, f, callee, hpc, -, hfetch, hra⟩ := h
  rw [hpc]
  exact ReturnAddresses.codeOffset_eq_some hfetch hra

namespace Machine

variable {σ : Type} {m : Machine σ} {p : Program} {c : Configuration σ}

/-- Every record on the stack of a run names a call. -/
theorem Reached.atCall (h : m.Reached p c) :
    ∀ a ∈ c.state.stack, a.AtCall m.env m.returnAddress := by
  refine h.invariant (I := fun s => ∀ a ∈ s.stack, a.AtCall m.env m.returnAddress)
    (fun s hstart => ?_) fun s host t host' _ hs htakes => ?_
  · obtain ⟨b, -, -, heq⟩ := hstart.eq
    rw [heq]
    simp
  · cases StackStep.of_takes htakes with
    | call control function fetch returns stack =>
      rw [stack]
      intro a ha
      rcases List.mem_cons.1 ha with rfl | ha
      · exact ⟨_, _, _, rfl, function, fetch, returns⟩
      · exact hs a ha
    | resume control stack next =>
      intro a ha
      exact hs a (by rw [stack]; exact List.mem_cons_of_mem _ ha)
    | keep notCall control stack =>
      rw [stack]
      exact hs

/-- Calls and returns match. In every run of a program, whatever the machine and the external
calls:

* a step suspends one caller more exactly at a call, one less exactly at a return that is not the
  last one, and as many as before otherwise;
* behind a call the stack of the caller lies, under a record of the caller, below the stack until
  the depth is that of the caller again, and when it is for the first time the caller goes on behind
  the call, with its own stack pointer and stack;
* with return addresses by position every record stands behind a call and holds the address of this
  place, so records of different calls hold different addresses. -/
theorem calls_bracketed (h : m.Reached p c) :
    (∀ c', m.next? c = some c' →
      (c'.state.depth = c.state.depth + 1 ↔ c.state.IsCall m.env) ∧
      (c'.state.depth + 1 = c.state.depth ↔
        c.state.control = .returning ∧ c.state.isFinal = false) ∧
      (c'.state.depth = c.state.depth ↔
        ¬ c.state.IsCall m.env ∧ ¬ (c.state.control = .returning ∧ c.state.isFinal = false))) ∧
    (∀ func sp pc c₁, c.state.control = .running func sp pc → c.state.IsCall m.env →
      m.next? c = some c₁ →
      ∃ ra,
        (∀ k c', m.after? c₁ k = some c' →
          (∀ j cj, j ≤ k → m.after? c₁ j = some cj → cj.state.depth ≠ c.state.depth) →
          ⟨func, sp, ra, pc + 1⟩ :: c.state.stack <:+ c'.state.stack) ∧
        ∀ k c', m.after? c₁ k = some c' → c'.state.depth = c.state.depth →
          (∀ j cj, j < k → m.after? c₁ j = some cj → cj.state.depth ≠ c.state.depth) →
          c'.state.control = .running func sp (pc + 1) ∧ c'.state.stack = c.state.stack) ∧
    (m.returnAddress = .codeOffset →
      (∀ a ∈ c.state.stack, (∃ o : Word, a.ra = .ptr a.func o ∧ o.toInt = a.pc) ∧
        ∃ pc f callee, a.pc = pc + 1 ∧ m.env.function? a.func = some (.internal f) ∧
          f.code[pc]? = some (.call callee)) ∧
      ∀ c', m.Reached p c' → ∀ a ∈ c.state.stack, ∀ a' ∈ c'.state.stack, a.ra = a'.ra →
        a.func = a'.func ∧ a.pc = a'.pc) := by
  refine ⟨fun c' hnext => ?_, fun func sp pc c₁ hcontrol hcall hnext => ?_, fun haddresses => ?_⟩
  · have hstep := stackStep_of_next? hnext
    exact ⟨hstep.depth_eq_succ_iff, hstep.succ_depth_eq_iff, hstep.depth_eq_iff⟩
  · -- The step of a call puts the record on the stack.
    have hrecord : ∃ ra, c₁.state.stack = ⟨func, sp, ra, pc + 1⟩ :: c.state.stack := by
      have hgrows := (stackStep_of_next? hnext).depth_eq_succ_iff.2 hcall
      cases stackStep_of_next? hnext with
      | call control function fetch returns stack =>
        rw [hcontrol] at control
        cases control
        exact ⟨_, stack⟩
      | resume control stack next =>
        rw [hcontrol] at control
        cases control
      | keep notCall control stack => exact absurd hcall notCall
    obtain ⟨ra, hstack⟩ := hrecord
    have hsuffix : ⟨func, sp, ra, pc + 1⟩ :: c.state.stack <:+ c₁.state.stack :=
      hstack ▸ List.suffix_refl _
    refine ⟨ra, fun k c' hrun hdeep => ?_, fun k c' hrun hback hdeep => ?_⟩
    · exact suffix_stack_of_after? hsuffix hrun hdeep
    · exact eq_of_depth_eq hsuffix hrun hback hdeep
  · have hatCall : ∀ c', m.Reached p c' → ∀ a ∈ c'.state.stack, a.AtCall m.env .codeOffset :=
      fun c' hreached => haddresses ▸ hreached.atCall
    refine ⟨fun a ha => ?_, fun c' hreached a ha a' ha' heq => ?_⟩
    · refine ⟨(hatCall c h a ha).ra_eq, ?_⟩
      obtain ⟨pc, f, callee, hpc, hfunction, hfetch, -⟩ := hatCall c h a ha
      exact ⟨pc, f, callee, hpc, hfunction, hfetch⟩
    · obtain ⟨o, hra, ho⟩ := (hatCall c h a ha).ra_eq
      obtain ⟨o', hra', ho'⟩ := (hatCall c' hreached a' ha').ra_eq
      rw [hra, hra', Value.ptr.injEq] at heq
      refine ⟨heq.1, ?_⟩
      rw [heq.2, ho'] at ho
      exact (Int.ofNat.inj ho).symm

/-- In `Program.printSeven` the entry point calls the function that prints. Four steps after this
call the entry point goes on behind it: the callee has given its frame up to an external function,
which has returned. -/
theorem calls_bracketed_printSeven : ∃ (c c' : Configuration Unit) (sp : Value),
    Machine.printSeven.Reached Program.printSeven c ∧ c.state.control = .running 1 sp 1 ∧
    c.state.IsCall Machine.printSeven.env ∧ Machine.printSeven.after? c 5 = some c' ∧
    c'.state.control = .running 1 sp 2 ∧ c'.state.stack = c.state.stack := by
  have hsome : (Machine.printSeven.after? ⟨State.printSeven, ()⟩ 7).isSome = true := by
    decide +kernel
  obtain ⟨c', hc'⟩ := Option.isSome_iff_exists.1 hsome
  obtain ⟨c, hc, hrest⟩ := exists_after?_of_le (k := 2) (by decide) hc'
  have hshape : (Machine.printSeven.after? ⟨State.printSeven, ()⟩ 2).map
      (fun c => (c.state.control, c.state.depth, c.state.instruction? Machine.printSeven.env)) =
        some (.running 1 (.ptr 4 (-8#32)) 1, 0, some (.call (.symbol "show"))) := by
    decide +kernel
  rw [hc, Option.map_some, Option.some.injEq, Prod.mk.injEq, Prod.mk.injEq] at hshape
  obtain ⟨hcontrol, hdepth, hinstr⟩ := hshape
  have hreached : Machine.printSeven.Reached Program.printSeven c :=
    ⟨State.printSeven, (), 2, Program.startsAt_printSeven, hc⟩
  obtain ⟨c₁, hc₁, hrest₁⟩ := exists_after?_of_le (k := 1) (by decide) hrest
  have hnext : Machine.printSeven.next? c = some c₁ := by simpa [after?] using hc₁
  have hdepths : ∀ j cj, Machine.printSeven.after? c₁ j = some cj →
      (Machine.printSeven.after? ⟨State.printSeven, ()⟩ (2 + 1 + j)).map (·.state.depth) =
        some cj.state.depth := by
    intro j cj hj
    rw [after?_add, after?_add, hc, Option.bind_some, hc₁, Option.bind_some, hj, Option.map_some]
  obtain ⟨ra, -, hback⟩ := (calls_bracketed hreached).2.1 1 _ 1 c₁ hcontrol ⟨_, hinstr⟩ hnext
  have hdeep : ∀ j cj, j < 4 → Machine.printSeven.after? c₁ j = some cj →
      cj.state.depth ≠ c.state.depth := by
    intro j cj hj hcj heq
    have hone : ∀ j < 4, (Machine.printSeven.after? ⟨State.printSeven, ()⟩ (2 + 1 + j)).map
        (·.state.depth) = some 1 := by
      decide +kernel
    have hcj' := hdepths j cj hcj
    rw [hone j hj, heq, hdepth] at hcj'
    cases hcj'
  have hlast : c'.state.depth = c.state.depth := by
    have hzero : (Machine.printSeven.after? ⟨State.printSeven, ()⟩ (2 + 1 + 4)).map
        (·.state.depth) = some 0 := by
      decide +kernel
    have hc'' := hdepths 4 c' hrest₁
    rw [hzero, Option.some.injEq] at hc''
    rw [hdepth, ← hc'']
  obtain ⟨hgoes, hstack⟩ := hback 4 c' hrest₁ hlast hdeep
  exact ⟨c, c', _, hreached, hcontrol, ⟨_, hinstr⟩, hrest, hgoes, hstack⟩

end Machine

end RegisterMachine
