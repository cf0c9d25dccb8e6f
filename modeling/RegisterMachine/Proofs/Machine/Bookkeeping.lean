import RegisterMachine.Proofs.Machine.Frames
import RegisterMachine.Proofs.Machine.Stepping

/-! # The books of an execution

An execution that is advanced by hand counts its successful steps, collects their events, and keeps
its last state or its failure. What it has on its books follows from what the steps have returned.
The end of a run is no failure: the state is kept, though steps are refused from then on. Only the
outermost return leads there, so a step that fails anywhere else has another reason.

* `Machine.ne_finished_of_step` — a step that fails does not finish the run.
* `Execution.returned` — what a number of steps return.
* `Execution.Parts`, `Execution.after_parts` — an execution with its state and its failure in
  separate fields, and the same steps.
* `Execution.KeepsBooks`, `Execution.keepsBooks_start` — the books after any number of steps.
-/

namespace RegisterMachine

variable {σ : Type}

/-! ## Steps that fail since the run has finished -/

section Finished

variable {env : Environment} {addresses : ReturnAddresses} {f : Function} {func : BlockId}
  {sp : Value} {pc : Nat} {stack : CallStack} {regs : RegisterFile} {mem : Memory}
  {callee : Callee} {l : Label} {i : Instruction} {reason : Stuck}

/-- A call that goes nowhere does not finish a run. -/
theorem Environment.ne_finished_of_resolve (h : env.resolve regs callee = .error reason) :
    reason ≠ .finished := by
  rintro rfl
  cases callee with
  | register r =>
    rw [resolve] at h
    split at h <;> cases h
  | symbol name =>
    rw [resolve] at h
    split at h
    · cases h
    · split at h <;> cases h

/-- A jump that goes nowhere does not finish a run. -/
theorem Function.ne_finished_of_jump (h : f.jump l = .error reason) : reason ≠ .finished := by
  rintro rfl
  rw [jump] at h
  split at h <;> cases h

/-- A frame that cannot be left does not finish a run. -/
theorem Function.ne_finished_of_releaseFrame (h : f.releaseFrame sp stack mem = .error reason) :
    reason ≠ .finished := by
  rintro rfl
  rcases cases_of_releaseFrame_eq_error h with ⟨_, _, he, -⟩ | ⟨_, _, he⟩ | ⟨_, _, he⟩ |
    ⟨_, _, _, he, -⟩ <;> cases he

/-- An instruction that fails does not finish a run. -/
theorem Refuses.ne_finished (h : Refuses env addresses f func sp pc stack regs mem i reason) :
    reason ≠ .finished := by
  rintro rfl
  cases h with
  | call resolved => exact Environment.ne_finished_of_resolve resolved rfl
  | tailCall resolved => exact Environment.ne_finished_of_resolve resolved rfl
  | tailCallRelease _ released => exact Function.ne_finished_of_releaseFrame released rfl
  | goto jump => exact Function.ne_finished_of_jump jump rfl
  | condJump _ jump => exact Function.ne_finished_of_jump jump rfl
  | jumpTable _ _ _ jump => exact Function.ne_finished_of_jump jump rfl
  | ret released => exact Function.ne_finished_of_releaseFrame released rfl

/-- A step from a state that is not final does not finish the run when it fails. -/
theorem Machine.ne_finished_of_step {m : Machine σ} {s : State} {host : σ}
    (h : (m.step s host).1 = .error reason) (hfinal : s.isFinal = false) : reason ≠ .finished := by
  have hfails : m.Fails s host reason := .of_step (Prod.ext h rfl)
  rintro rfl
  -- An external call fails with reasons of its own, and the only other step that finishes a run is
  -- the one from a final state.
  cases hfails with
  | blocked blocked =>
    cases blocked with
    | execute _ _ refuses => exact refuses.ne_finished rfl
    | function internal =>
      rw [Environment.internal] at internal
      split at internal <;> cases internal
    | enter _ entered =>
      obtain ⟨_, _, _, _, he, -⟩ := Function.exists_of_enterFrame_eq_error entered
      cases he
    | finished => cases hfinal

end Finished

namespace Execution

variable {m : Machine σ} {s s' : State} {host : σ} {e e' : Execution σ} {reason : Stuck}
  {result : Except Stuck (List Event)} {j k n : Nat}

/-! ## One step -/

/-- An execution is in a state unless it has failed. -/
theorem state?_eq_some_iff : e.state? = some s ↔ e.status = .live s := by
  rw [state?]
  cases e.status <;> simp

namespace Stepped

/-- A step keeps the machine. -/
theorem machine_eq (h : e.Stepped result e') : e'.machine = e.machine := by
  cases h <;> rfl

/-- A step is counted if it succeeds. -/
theorem steps_eq (h : e.Stepped result e') :
    e'.steps = e.steps + if result.isOk then 1 else 0 := by
  cases h <;> rfl

/-- A failure for another reason than the end of the run is kept. -/
theorem status_eq (h : e.Stepped (.error reason) e') (hreason : reason ≠ .finished) :
    e'.status = .wrong reason := by
  cases h with
  | failed failure => exact failure
  | finished => exact absurd rfl hreason
  | stuck => rfl

/-- The end of a run is never kept as a failure. -/
theorem status_ne_finished (h : e.Stepped result e') (hstatus : e.status ≠ .wrong .finished) :
    e'.status ≠ .wrong .finished := by
  cases h with
  | failed => exact hstatus
  | finished => exact hstatus
  | next => exact nofun
  | stuck _ goesOn step =>
    intro heq
    have hreason := Machine.ne_finished_of_step (Prod.ext_iff.1 step).1 goesOn
    exact hreason (Status.wrong.inj heq)

/-- Steps are refused for the end of the run in final states, and in no others. -/
theorem finished_iff (h : e.Stepped result e') (hstatus : e.status ≠ .wrong .finished) :
    result = .error .finished ↔ ∃ s, e.state? = some s ∧ s.isFinal = true := by
  cases h with
  | @failed reason failure =>
    have hreason : reason ≠ .finished := by
      rintro rfl
      exact hstatus failure
    simp [state?, failure, hreason]
  | finished live final => simp [state?, live, final]
  | next live step => simp [state?, live, Machine.isFinal_eq_false_of_step step]
  | stuck live goesOn step =>
    have hreason := Machine.ne_finished_of_step (Prod.ext_iff.1 step).1 goesOn
    simp [state?, live, goesOn, hreason]

end Stepped

/-! ## Several steps -/

/-- What a number of steps return, in order. -/
def returned (e : Execution σ) (n : Nat) : List (Except Stuck (List Event)) :=
  (List.range n).map fun k => (e.after k).step.1

/-- What one more step returns comes last. -/
theorem returned_succ : e.returned (n + 1) = e.returned n ++ [(e.after n).step.1] := by
  simp [returned, List.range_succ]

/-- The machine is kept. -/
theorem machine_after : (e.after n).machine = e.machine := by
  induction n with
  | zero => rfl
  | succ n ih => rw [after, (e.after n).stepped.machine_eq, ih]

/-- The successful steps are counted. -/
theorem steps_after : (e.after n).steps = e.steps + (e.returned n).countP Except.isOk := by
  induction n with
  | zero => rfl
  | succ n ih =>
    rw [after, (e.after n).stepped.steps_eq, ih, returned_succ, List.countP_append,
      List.countP_singleton, Nat.add_assoc]

/-- The events are collected. -/
theorem trace_after :
    (e.after n).trace.toList = e.trace.toList ++ (e.returned n).flatMap eventsOf := by
  induction n with
  | zero => simp [after, returned]
  | succ n ih =>
    rw [after, (e.after n).stepped.trace_eq, ih, returned_succ, List.flatMap_append,
      List.flatMap_singleton, List.append_assoc]

/-- The end of a run is never kept as a failure. -/
theorem status_after_ne_finished (h : e.status ≠ .wrong .finished) :
    (e.after n).status ≠ .wrong .finished := by
  induction n with
  | zero => exact h
  | succ n ih => exact (e.after n).stepped.status_ne_finished ih

/-- Where an execution stays as it is all later steps leave it so. -/
theorem after_of_rests (h : (e.after n).step.2 = e.after n) (hle : n ≤ k) :
    e.after k = e.after n := by
  obtain ⟨rest, rfl⟩ := Nat.exists_eq_add_of_le hle
  rw [after_add, after_of_step_eq h]

/-- After a failure for another reason than the end of the run there is no state any more, and every
step fails for the same reason. -/
theorem after_of_failure (hfails : (e.after n).step.1 = .error reason)
    (hreason : reason ≠ .finished) (hlt : n < k) :
    (e.after k).step.1 = .error reason ∧ (e.after k).state? = none := by
  have hstepped := (e.after n).stepped
  rw [hfails] at hstepped
  -- The failure is on the books after the step, and then no step changes anything.
  have hwrong : (e.after (n + 1)).status = .wrong reason := hstepped.status_eq hreason
  have hstep := (Stepped.failed hwrong).step_eq
  rw [after_of_rests (Prod.ext_iff.1 hstep).2 hlt, hstep, state?, hwrong]
  exact ⟨rfl, rfl⟩

/-- After the end of a run its state and its exit code are kept, and every step is refused. -/
theorem after_of_final (hlive : (e.after n).state? = some s) (hfinal : s.isFinal = true)
    (hle : n ≤ k) :
    (e.after k).step.1 = .error .finished ∧ (e.after k).state? = some s ∧
      (e.after k).exitCode = (e.after n).exitCode := by
  have hstatus : (e.after n).status = .live s := state?_eq_some_iff.1 hlive
  have hstep := (Stepped.finished hstatus hfinal).step_eq
  rw [after_of_rests (Prod.ext_iff.1 hstep).2 hle, hstep]
  exact ⟨rfl, hlive, rfl⟩

/-- A run that comes to a step that fails goes wrong there. -/
theorem run_start_of_failure (hlive : ((start m host s).after n).state? = some s')
    (hfinal : s'.isFinal = false) (hfails : ((start m host s).after n).step.1 = .error reason)
    (hlt : n < k) :
    (start m host s).run k = .goesWrong ((start m host s).after n).trace.toList reason := by
  rcases after_start_cases m s host n with
    ⟨j, events, c, -, hrun, hlast, hafter⟩ | ⟨_, _, _, _, _, _, _, _, _, hafter⟩
  · rw [hafter] at hlive hfails ⊢
    obtain rfl : c.state = s' := Option.some_inj.1 hlive
    obtain rfl : j = n := hlast.resolve_right (by simp [hfinal])
    rcases hstep : m.step c.state c.host with ⟨reason' | t, host'⟩
    · have hreached := (Stepped.stuck (e := reached m c events j) rfl hfinal hstep).step_eq
      rw [hreached] at hfails
      cases hfails
      exact run_start_of_behaves (.stuck hrun hlt hfinal (Prod.ext_iff.1 hstep).1)
    · rw [step_reached hstep] at hfails
      cases hfails
  · rw [hafter] at hlive
    cases hlive

/-! ## State and failure in separate fields -/

/-- The failure of an execution; none while it is in a state. -/
def failure? (e : Execution σ) : Option Stuck :=
  match e.status with
  | .live _ => none
  | .wrong reason => some reason

/-- An execution with its state and its failure in separate fields. -/
structure Parts (σ : Type) where
  /-- The machine. -/
  machine : Machine σ
  /-- The state of external calls. -/
  host : σ
  /-- The current state; none once a step has failed. -/
  state? : Option State
  /-- The failure, once a step has failed. -/
  failure? : Option Stuck
  /-- All events so far. -/
  trace : Array Event
  /-- Number of successful steps so far. -/
  steps : Nat

namespace Parts

/-- Takes one step. The state is taken out first. If it is final it is put back, if it has a next
one that is put in its place, and otherwise the place stays empty and the failure is recorded. -/
def step (e : Parts σ) : Except Stuck (List Event) × Parts σ :=
  match e.failure? with
  | some reason => (.error reason, e)
  | none =>
    let taken := { e with state? := none }
    match e.state? with
    | none => (.error .finished, taken)
    | some s =>
      if s.isFinal then (.error .finished, { taken with state? := some s })
      else
        match taken.machine.step s taken.host with
        | (.ok t, host) =>
          (.ok t.events, { taken with
            host
            steps := taken.steps + 1
            state? := some t.state
            trace := taken.trace.appendList t.events })
        | (.error reason, host) => (.error reason, { taken with host, failure? := some reason })

/-- After a number of steps, whatever each of them returns. -/
def after (e : Parts σ) : (steps : Nat) → Parts σ
  | 0 => e
  | k + 1 => (e.after k).step.2

/-- The exit code, once the entry point has returned. -/
def exitCode (e : Parts σ) : Except Stuck (Option Word) :=
  match e.state? with
  | some s => e.machine.exitCode s
  | none => .ok none

end Parts

/-- An execution with its status taken apart. -/
def parts (e : Execution σ) : Parts σ :=
  ⟨e.machine, e.host, e.state?, e.failure?, e.trace, e.steps⟩

/-- An execution has either a state or a failure. -/
theorem isSome_failure? (e : Execution σ) : e.failure?.isSome = e.state?.isNone := by
  rw [failure?, state?]
  cases e.status <;> rfl

/-- A step with separate fields is a step of the execution. -/
theorem step_parts (e : Execution σ) : e.parts.step = (e.step.1, e.step.2.parts) := by
  obtain ⟨m, host, status, trace, n⟩ := e
  cases status with
  | wrong reason => rfl
  | live s =>
    simp only [Parts.step, parts, failure?, state?, step]
    by_cases hfinal : s.isFinal
    · simp [hfinal]
    · rcases hstep : m.step s host with ⟨reason | t, host'⟩ <;> simp [hfinal]

/-- So are several steps. -/
theorem after_parts : e.parts.after n = (e.after n).parts := by
  induction n with
  | zero => rfl
  | succ n ih => rw [Parts.after, ih, step_parts, after]

/-- The exit code is the same with separate fields. -/
theorem exitCode_parts (e : Execution σ) : e.parts.exitCode = e.exitCode := by
  rw [Parts.exitCode, exitCode, parts, state?]
  cases e.status <;> rfl

/-! ## The books -/

/-- What an execution has on its books after any number of steps, whatever these have returned. -/
structure KeepsBooks (e : Execution σ) : Prop where
  /-- The number of steps that have succeeded. -/
  steps_eq : ∀ n, (e.after n).steps = (e.returned n).countP Except.isOk
  /-- The events that steps have returned, in order. -/
  trace_eq : ∀ n, (e.after n).trace.toList = (e.returned n).flatMap eventsOf
  /-- A step that fails changes neither of them. -/
  of_error : ∀ n reason, (e.after n).step.1 = .error reason →
    (e.after (n + 1)).steps = (e.after n).steps ∧ (e.after (n + 1)).trace = (e.after n).trace
  /-- Once a step has failed for another reason than the end of the run there is no state, and all
  later steps fail for the same reason. -/
  of_failure : ∀ n reason, (e.after n).step.1 = .error reason → reason ≠ .finished →
    ∀ k, n < k → (e.after k).step.1 = .error reason ∧ (e.after k).state? = none
  /-- Once the state is final it is kept, and so is the exit code, and all later steps are refused.
  -/
  of_final : ∀ n s, (e.after n).state? = some s → s.isFinal = true →
    ∀ k, n ≤ k → (e.after k).step.1 = .error .finished ∧ (e.after k).state? = some s ∧
      (e.after k).exitCode = (e.after n).exitCode
  /-- Steps are refused for the end of the run in final states, and in no others. -/
  finished_iff : ∀ n, (e.after n).step.1 = .error .finished ↔
    ∃ s, (e.after n).state? = some s ∧ s.isFinal = true
  /-- With separate fields for the state and the failure the steps return the same and do the same
  to the other fields, and the exit code is the same. -/
  parts_eq : ∀ n, (e.parts.after n).step.1 = (e.after n).step.1 ∧
    e.parts.after n = (e.after n).parts ∧ (e.parts.after n).exitCode = (e.after n).exitCode
  /-- One of these two fields is empty, and the other one is not. -/
  exclusive : ∀ n, (e.parts.after n).failure?.isSome = (e.parts.after n).state?.isNone

/-- Every execution keeps books from its start. -/
theorem keepsBooks_start (m : Machine σ) (s : State) (host : σ) : (start m host s).KeepsBooks where
  steps_eq n := by
    rw [steps_after]
    exact Nat.zero_add _
  trace_eq n := by
    rw [trace_after]
    rfl
  of_error n reason hfails := by
    have hstepped := ((start m host s).after n).stepped
    rw [hfails] at hstepped
    exact ⟨hstepped.steps_eq, trace_of_step_error (Prod.ext hfails rfl)⟩
  of_failure n reason hfails hreason k := after_of_failure hfails hreason
  of_final n s' hlive hfinal k := after_of_final hlive hfinal
  finished_iff n :=
    ((start m host s).after n).stepped.finished_iff (status_after_ne_finished nofun)
  parts_eq n := by
    rw [after_parts, step_parts, exitCode_parts]
    exact ⟨rfl, rfl, rfl⟩
  exclusive n := by
    rw [after_parts]
    exact isSome_failure? _

end Execution

end RegisterMachine
