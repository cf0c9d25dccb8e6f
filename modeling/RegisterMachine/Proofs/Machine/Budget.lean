import RegisterMachine.Machine.Execution
import RegisterMachine.Proofs.Machine.Run

/-! # Runs with a budget

A run goes on until its end or until its budget of steps is used up. What is observed of it is said
here without driving an execution: a number of successful steps leads to a state that is final, or to
one whose next step fails, or else as many steps as the budget allows lead to a state that is not
final. So a greater budget changes nothing once the run has ended, and lets a run that has not ended
go on from where it was.

* `Machine.Runs` — a number of successful steps with their events.
* `Machine.runs_or_fails` — a run goes on for a number of steps, or one of them fails.
* `Machine.Behaves` — what is observed of a run with a budget.
* `Execution.Stepped`, `Execution.stepped` — the ways in which an execution takes a step.
* `Execution.run_start_eq_iff` — driving an execution shows what is observed of its run.
* `Execution.fuel_monotone` — what a greater budget changes.
-/

namespace RegisterMachine

namespace Machine

variable {σ : Type} {m : Machine σ} {c c' : Configuration σ} {s : State} {host host' : σ}
  {t : Transition} {reason : Stuck} {n fuel : Nat} {events : List Event}

/-! ## Successful steps -/

/-- A number of successful steps that lead from a configuration to another one, with their events in
order. -/
inductive Runs (m : Machine σ) (c : Configuration σ) :
    (steps : Nat) → List Event → Configuration σ → Prop where
  /-- No steps. -/
  | refl : Runs m c 0 [] c
  /-- Steps, and another one. -/
  | next {n : Nat} {events : List Event} {c' : Configuration σ} {t : Transition} {host : σ}
      (run : Runs m c n events c') (step : m.step c'.state c'.host = (.ok t, host)) :
      Runs m c (n + 1) (events ++ t.events) ⟨t.state, host⟩

/-- A run goes on for a number of steps, or one of them fails. -/
theorem runs_or_fails (m : Machine σ) (c : Configuration σ) (n : Nat) :
    (∃ events c', m.Runs c n events c') ∨
      ∃ k events c' reason, k < n ∧ m.Runs c k events c' ∧
        (m.step c'.state c'.host).1 = .error reason := by
  induction n with
  | zero => exact .inl ⟨[], c, .refl⟩
  | succ n ih =>
    rcases ih with ⟨events, c', hrun⟩ | ⟨k, events, c', reason, hk, hrun, hfails⟩
    · rcases hstep : m.step c'.state c'.host with ⟨reason | t, host⟩
      · exact .inr ⟨n, events, c', reason, n.lt_succ_self, hrun, by rw [hstep]⟩
      · exact .inl ⟨_, _, hrun.next hstep⟩
    · exact .inr ⟨k, events, c', reason, Nat.lt_succ_of_lt hk, hrun, hfails⟩

/-! ## Ends of runs -/

/-- No step is taken from a final state. -/
theorem isFinal_eq_false_of_step (h : m.step s host = (.ok t, host')) : s.isFinal = false := by
  rw [Bool.eq_false_iff]
  intro hfinal
  obtain ⟨control, stack, regs, mem⟩ := s
  obtain ⟨rfl, rfl⟩ := State.isFinal_iff.1 hfinal
  cases h

/-- A state that is not final has no exit code, and does not fail to have one. -/
theorem exitCode_eq_none_iff : m.exitCode s = .ok none ↔ s.isFinal = false := by
  unfold exitCode
  cases s.isFinal with
  | false => simp
  | true =>
    rw [if_pos rfl]
    split <;> simp

/-- What is observed of a run with a budget, and how many successful steps it takes. -/
inductive Behaves (m : Machine σ) (c : Configuration σ) (fuel : Nat) :
    (steps : Nat) → Behavior → Prop where
  /-- Steps within the budget lead to a final state with an exit code. -/
  | exits {k : Nat} {events : List Event} {c' : Configuration σ} {code : Word}
      (run : m.Runs c k events c') (within : k ≤ fuel)
      (exit : m.exitCode c'.state = .ok (some code)) :
      Behaves m c fuel k (.terminates events code)
  /-- Steps within the budget lead to a final state without an exit code. -/
  | noCode {k : Nat} {events : List Event} {c' : Configuration σ} {reason : Stuck}
      (run : m.Runs c k events c') (within : k ≤ fuel) (exit : m.exitCode c'.state = .error reason) :
      Behaves m c fuel k (.goesWrong events reason)
  /-- Steps lead to a state whose next step, which is still within the budget, fails. -/
  | stuck {k : Nat} {events : List Event} {c' : Configuration σ} {reason : Stuck}
      (run : m.Runs c k events c') (within : k < fuel) (goesOn : c'.state.isFinal = false)
      (fails : (m.step c'.state c'.host).1 = .error reason) :
      Behaves m c fuel k (.goesWrong events reason)
  /-- As many steps as the budget allows lead to a state that is not final. -/
  | outOfFuel {events : List Event} {c' : Configuration σ} (run : m.Runs c fuel events c')
      (goesOn : c'.state.isFinal = false) : Behaves m c fuel fuel (.diverges events)

/-- Something is observed of every run. -/
theorem exists_behaves (m : Machine σ) (c : Configuration σ) (fuel : Nat) :
    ∃ k behavior, m.Behaves c fuel k behavior := by
  rcases m.runs_or_fails c fuel with ⟨events, c', hrun⟩ | ⟨k, events, c', reason, hk, hrun, hfails⟩
  · rcases hexit : m.exitCode c'.state with reason | code?
    · exact ⟨_, _, .noCode hrun fuel.le_refl hexit⟩
    · cases code? with
      | none => exact ⟨_, _, .outOfFuel hrun (exitCode_eq_none_iff.1 hexit)⟩
      | some code => exact ⟨_, _, .exits hrun fuel.le_refl hexit⟩
  · -- The step fails in a final state, too, where the exit code is looked at first.
    rcases hexit : m.exitCode c'.state with reason | code?
    · exact ⟨_, _, .noCode hrun (Nat.le_of_lt hk) hexit⟩
    · cases code? with
      | none => exact ⟨_, _, .stuck hrun hk (exitCode_eq_none_iff.1 hexit) hfails⟩
      | some code => exact ⟨_, _, .exits hrun (Nat.le_of_lt hk) hexit⟩

end Machine

namespace Execution

variable {σ : Type} {m : Machine σ} {c c' : Configuration σ} {s : State} {host : σ}
  {t : Transition} {code : Word} {reason : Stuck} {k n fuel : Nat} {events : List Event}
  {behavior : Behavior} {e e' : Execution σ} {result : Except Stuck (List Event)}

/-! ## One step -/

/-- The ways in which an execution takes a step. -/
inductive Stepped (e : Execution σ) : Except Stuck (List Event) → Execution σ → Prop where
  /-- It has failed before, and fails in the same way. -/
  | failed {reason : Stuck} (failure : e.status = .wrong reason) : Stepped e (.error reason) e
  /-- It has finished, and keeps its state. -/
  | finished {s : State} (live : e.status = .live s) (final : s.isFinal = true) :
      Stepped e (.error .finished) e
  /-- The machine takes a step. -/
  | next {s : State} {t : Transition} {host : σ} (live : e.status = .live s)
      (step : e.machine.step s e.host = (.ok t, host)) :
      Stepped e (.ok t.events)
        ⟨e.machine, host, .live t.state, e.trace.appendList t.events, e.steps + 1⟩
  /-- The machine has no next state. -/
  | stuck {s : State} {reason : Stuck} {host : σ} (live : e.status = .live s)
      (goesOn : s.isFinal = false) (step : e.machine.step s e.host = (.error reason, host)) :
      Stepped e (.error reason) ⟨e.machine, host, .wrong reason, e.trace, e.steps⟩

/-- Every step is taken in one of these ways. -/
theorem stepped (e : Execution σ) : e.Stepped e.step.1 e.step.2 := by
  obtain ⟨m, host, status, trace, n⟩ := e
  cases status with
  | wrong reason => exact .failed rfl
  | live s =>
    rw [step]
    by_cases hfinal : s.isFinal
    · rw [if_pos hfinal]
      exact .finished rfl hfinal
    · rw [if_neg hfinal]
      rcases hstep : m.step s host with ⟨reason | t, host'⟩
      · exact .stuck rfl (Bool.eq_false_iff.2 hfinal) hstep
      · exact .next rfl hstep

/-- A step is taken in one way only. -/
theorem Stepped.step_eq (h : e.Stepped result e') : e.step = (result, e') := by
  obtain ⟨m, host, status, trace, n⟩ := e
  cases h with
  | failed failure =>
    cases failure
    rfl
  | finished live final =>
    cases live
    rw [step, if_pos final]
  | next live hstep =>
    cases live
    have hfinal := Machine.isFinal_eq_false_of_step hstep
    simp only at hstep
    simp [step, hfinal, hstep]
  | stuck live goesOn hstep =>
    cases live
    simp only at hstep
    simp [step, goesOn, hstep]

/-! ## Driving an execution -/

/-- The execution that has come to a configuration after a number of steps with some events. -/
def reached (m : Machine σ) (c : Configuration σ) (events : List Event) (n : Nat) : Execution σ :=
  ⟨m, c.host, .live c.state, events.toArray, n⟩

/-- An execution that has not taken a step has come to the configuration in which it starts. -/
theorem start_eq_reached : start m host s = reached m ⟨s, host⟩ [] 0 := rfl

@[simp] theorem exitCode_reached : (reached m c events n).exitCode = m.exitCode c.state := rfl

/-- A successful step of the machine is a step of the execution. -/
theorem step_reached (h : m.step c.state c.host = (.ok t, host)) :
    (reached m c events n).step =
      (.ok t.events, reached m ⟨t.state, host⟩ (events ++ t.events) (n + 1)) := by
  simp [reached, step, Machine.isFinal_eq_false_of_step h, h]

/-- A step of the machine that fails is the failure of the execution. -/
theorem step_reached_of_fails (hfinal : c.state.isFinal = false)
    (h : (m.step c.state c.host).1 = .error reason) (events : List Event) (n : Nat) :
    ∃ host, (reached m c events n).step =
      (.error reason, ⟨m, host, .wrong reason, events.toArray, n⟩) := by
  rcases hstep : m.step c.state c.host with ⟨result, host⟩
  rw [hstep] at h
  subst h
  exact ⟨host, by simp [reached, step, hfinal, hstep]⟩

/-- An execution that takes a step is then driven with one step less. -/
theorem run_succ_reached (h : m.step c.state c.host = (.ok t, host)) :
    (reached m c events n).run (fuel + 1) =
      (reached m ⟨t.state, host⟩ (events ++ t.events) (n + 1)).run fuel := by
  have hfinal := Machine.isFinal_eq_false_of_step h
  rw [run, run, drive, exitCode_reached, Machine.exitCode_eq_none_iff.2 hfinal, step_reached h]

/-- An execution in a final state shows the exit code with any budget. -/
theorem run_reached_of_exit (h : m.exitCode c.state = .ok (some code)) :
    (reached m c events n).run fuel = .terminates events code := by
  rw [run, drive.eq_def, exitCode_reached, h]
  simp [reached]

/-- An execution in a final state without an exit code is stuck with any budget. -/
theorem run_reached_of_noCode (h : m.exitCode c.state = .error reason) :
    (reached m c events n).run fuel = .goesWrong events reason := by
  rw [run, drive.eq_def, exitCode_reached, h]
  simp [reached]

/-- An execution whose step fails is stuck if there is a budget for the step. -/
theorem run_succ_reached_of_stuck (hfinal : c.state.isFinal = false)
    (h : (m.step c.state c.host).1 = .error reason) :
    (reached m c events n).run (fuel + 1) = .goesWrong events reason := by
  obtain ⟨host, hstep⟩ := step_reached_of_fails hfinal h events n
  rw [run, drive, exitCode_reached, Machine.exitCode_eq_none_iff.2 hfinal, hstep]

/-- An execution without budget shows nothing but its events, unless it has ended. -/
theorem run_zero_reached (hfinal : c.state.isFinal = false) :
    (reached m c events n).run 0 = .diverges events := by
  rw [run, drive, exitCode_reached, Machine.exitCode_eq_none_iff.2 hfinal]
  simp [reached]

/-- An execution that can take a number of steps takes them, and goes on with the rest of the
budget. -/
theorem run_start_of_runs (h : m.Runs c n events c') :
    (start m c.host c.state).run (n + fuel) = (reached m c' events n).run fuel := by
  induction h generalizing fuel with
  | refl => rw [Nat.zero_add, start_eq_reached]
  | @next n _ _ _ _ _ step ih => rw [Nat.add_assoc, Nat.add_comm 1, ih, run_succ_reached step]

/-- Driving an execution shows what is observed of its run. -/
theorem run_start_of_behaves (h : m.Behaves c fuel k behavior) :
    (start m c.host c.state).run fuel = behavior := by
  cases h with
  | exits run within exit =>
    rw [← Nat.add_sub_of_le within, run_start_of_runs run, run_reached_of_exit exit]
  | noCode run within exit =>
    rw [← Nat.add_sub_of_le within, run_start_of_runs run, run_reached_of_noCode exit]
  | stuck run within goesOn fails =>
    obtain ⟨rest, rfl⟩ := Nat.exists_eq_add_of_lt within
    rw [Nat.add_assoc, run_start_of_runs run, run_succ_reached_of_stuck goesOn fails]
  | outOfFuel run goesOn =>
    exact (run_start_of_runs run).trans (run_zero_reached goesOn)

/-- An execution shows a behavior exactly if that is observed of its run. -/
theorem run_start_eq_iff :
    (start m host s).run fuel = behavior ↔ ∃ k, m.Behaves ⟨s, host⟩ fuel k behavior := by
  constructor
  · rintro rfl
    obtain ⟨k, behavior, h⟩ := m.exists_behaves ⟨s, host⟩ fuel
    exact ⟨k, by rwa [run_start_of_behaves h]⟩
  · rintro ⟨k, h⟩
    exact run_start_of_behaves h

/-! ## Traces -/

/-- The events that a step returns; none if it fails. -/
def eventsOf : Except Stuck (List Event) → List Event
  | .ok events => events
  | .error _ => []

/-- The events of a step are added to the trace. -/
theorem Stepped.trace_eq (h : e.Stepped result e') :
    e'.trace.toList = e.trace.toList ++ eventsOf result := by
  cases h <;> simp [eventsOf]

/-- A successful step adds its events to the trace. -/
theorem trace_of_step_ok (h : e.step = (.ok events, e')) :
    e'.trace.toList = e.trace.toList ++ events := by
  have hstepped := e.stepped
  rw [h] at hstepped
  exact hstepped.trace_eq

/-- A step that fails leaves the trace as it is. -/
theorem trace_of_step_error (h : e.step = (.error reason, e')) : e'.trace = e.trace := by
  have hstepped := e.stepped
  rw [h] at hstepped
  cases hstepped with
  | failed => rfl
  | finished => rfl
  | stuck => rfl

/-- What is shown of an execution are all events up to its halt. -/
theorem trace_run (e : Execution σ) (fuel : Nat) :
    (e.run fuel).trace = (e.drive fuel).2.trace.toList := by
  unfold run
  rcases e.drive fuel with ⟨_ | _ | _, last⟩ <;> rfl

/-- While an execution is driven its trace grows at the end. -/
theorem trace_prefix_drive (e : Execution σ) (fuel : Nat) :
    e.trace.toList <+: (e.drive fuel).2.trace.toList := by
  induction fuel generalizing e with
  | zero =>
    rw [drive]
    rcases e.exitCode with _ | _ | _ <;> exact List.prefix_rfl
  | succ fuel ih =>
    rw [drive]
    rcases e.exitCode with _ | _ | _
    · exact List.prefix_rfl
    · rcases hstep : e.step with ⟨reason | events, e'⟩
      · simp only [trace_of_step_error hstep, List.prefix_rfl]
      · exact (List.prefix_append _ events).trans (trace_of_step_ok hstep ▸ ih e')
    · exact List.prefix_rfl

/-! ## More fuel -/

/-- More fuel keeps the behavior of a run that has ended, and lets a run that has not ended go on:

* a run that terminates or goes wrong with a budget does so with any greater one, with the same
  trace and code or reason;
* a run that diverges with a budget has taken as many successful steps and has not ended, and its
  trace is the beginning of the trace with any greater budget;
* a run that comes to a final state after some steps shows its exit code, or that there is none, with
  a budget of these steps or more;
* a run that goes wrong in the step after some steps shows that with any greater budget. -/
theorem fuel_monotone (m : Machine σ) (s : State) (host : σ) :
    (∀ n fuel, n ≤ fuel →
      (∀ trace code, (start m host s).run n = .terminates trace code →
        (start m host s).run fuel = .terminates trace code) ∧
      (∀ trace reason, (start m host s).run n = .goesWrong trace reason →
        (start m host s).run fuel = .goesWrong trace reason) ∧
      ∀ trace, (start m host s).run n = .diverges trace →
        trace <+: ((start m host s).run fuel).trace ∧
          ∃ c, m.Runs ⟨s, host⟩ n trace c ∧ c.state.isFinal = false) ∧
    ∀ k trace c, m.Runs ⟨s, host⟩ k trace c →
      (∀ code, m.exitCode c.state = .ok (some code) →
        ∀ fuel, k ≤ fuel → (start m host s).run fuel = .terminates trace code) ∧
      (∀ reason, m.exitCode c.state = .error reason →
        ∀ fuel, k ≤ fuel → (start m host s).run fuel = .goesWrong trace reason) ∧
      ∀ reason, c.state.isFinal = false → (m.step c.state c.host).1 = .error reason →
        ∀ fuel, k < fuel → (start m host s).run fuel = .goesWrong trace reason := by
  refine ⟨fun n fuel hle => ⟨fun trace code hn => ?_, fun trace reason hn => ?_,
    fun trace hn => ?_⟩, fun k trace c hrun => ⟨fun code hexit fuel hle => ?_,
    fun reason hexit fuel hle => ?_, fun reason hfinal hfails fuel hlt => ?_⟩⟩
  · obtain ⟨k, hk⟩ := run_start_eq_iff.1 hn
    cases hk with
    | exits run within exit => exact run_start_of_behaves (.exits run (Nat.le_trans within hle) exit)
  · obtain ⟨k, hk⟩ := run_start_eq_iff.1 hn
    cases hk with
    | noCode run within exit => exact run_start_of_behaves (.noCode run (Nat.le_trans within hle) exit)
    | stuck run within goesOn fails =>
      exact run_start_of_behaves (.stuck run (Nat.lt_of_lt_of_le within hle) goesOn fails)
  · obtain ⟨k, hk⟩ := run_start_eq_iff.1 hn
    cases hk with
    | @outOfFuel _ c run goesOn =>
      refine ⟨?_, c, run, goesOn⟩
      -- The run with more fuel goes on from where the other one has stopped.
      have hrun : (start m host s).run (n + (fuel - n)) = _ := run_start_of_runs run
      rw [Nat.add_sub_of_le hle] at hrun
      rw [hrun, trace_run]
      have hprefix := trace_prefix_drive (reached m c trace n) (fuel - n)
      rwa [reached, List.toList_toArray] at hprefix
  · exact run_start_of_behaves (.exits hrun hle hexit)
  · exact run_start_of_behaves (.noCode hrun hle hexit)
  · exact run_start_of_behaves (.stuck hrun hlt hfinal hfails)

end Execution

end RegisterMachine
