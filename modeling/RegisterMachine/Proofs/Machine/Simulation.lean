import RegisterMachine.Machine.Execution
import RegisterMachine.Proofs.Results

/-! # Executions that correspond

Two executions that correspond step by step come to a halt in the same way, but for the reasons that
they give for being stuck. How long they have to correspond depends on the budget of steps.

* `Halt.mapReason`, `Behavior.mapReason` — the ends of runs with the reason changed.
* `Execution.Simulation` — a relation between executions that steps keep, as long as steps are left.
* `Execution.Simulation.run` — executions in such a relation have the same behavior.
-/

namespace RegisterMachine

/-- The way in which an execution came to a halt, with the reason changed. -/
def Halt.mapReason (f : Stuck → Stuck) : Halt → Halt
  | .exit code => .exit code
  | .wrong reason => .wrong (f reason)
  | .outOfFuel => .outOfFuel

/-- The behavior in which the reason for being stuck is changed. -/
def Behavior.mapReason (f : Stuck → Stuck) : Behavior → Behavior
  | .terminates trace code => .terminates trace code
  | .goesWrong trace reason => .goesWrong trace (f reason)
  | .diverges trace => .diverges trace

/-- Nothing changes if the reason does not. -/
@[simp] theorem Behavior.mapReason_id (behavior : Behavior) : behavior.mapReason id = behavior := by
  cases behavior <;> rfl

namespace Execution

variable {σ τ : Type} {f : Stuck → Stuck} {R : Nat → Execution σ → Execution τ → Prop}
  {e : Execution σ} {e' : Execution τ} {fuel : Nat}

/-- A relation between executions, given the number of steps that are left: they have the same trace
and have ended in the same way, and the next steps fail or succeed together and lead to related
executions. -/
structure Simulation (f : Stuck → Stuck) (R : Nat → Execution σ → Execution τ → Prop) : Prop where
  /-- The traces are the same. -/
  trace : ∀ {fuel e e'}, R fuel e e' → e'.trace = e.trace
  /-- The exit codes are the same. -/
  exitCode : ∀ {fuel e e'}, R fuel e e' →
    Corresponds f (fun code code' => code' = code) e.exitCode e'.exitCode
  /-- Both take a step, or both fail to. -/
  step : ∀ {fuel e e'}, R (fuel + 1) e e' →
    Corresponds f (fun _ _ => True) e.step.1 e'.step.1
  /-- They are related after the step. -/
  next : ∀ {fuel e e'}, R (fuel + 1) e e' → R fuel e.step.2 e'.step.2

namespace Simulation

/-- Both executions have ended in the same way, or neither has. -/
theorem exitCode_cases (h : Simulation f R) (hR : R fuel e e') :
    (∃ code, e.exitCode = .ok (some code) ∧ e'.exitCode = .ok (some code)) ∨
      (∃ reason, e.exitCode = .error reason ∧ e'.exitCode = .error (f reason)) ∨
        (e.exitCode = .ok none ∧ e'.exitCode = .ok none) := by
  have hend := h.exitCode hR
  generalize e.exitCode = x, e'.exitCode = x' at hend
  cases hend with
  | error reason => exact .inr (.inl ⟨reason, rfl, rfl⟩)
  | @ok code? code?' heq =>
    subst heq
    cases code?' with
    | some code => exact .inl ⟨code, rfl, rfl⟩
    | none => exact .inr (.inr ⟨rfl, rfl⟩)

/-- Both executions come to a halt in the same way, with the same trace. -/
theorem drive (h : Simulation f R) (hR : R fuel e e') :
    (e'.drive fuel).1 = (e.drive fuel).1.mapReason f ∧
      (e'.drive fuel).2.trace = (e.drive fuel).2.trace := by
  induction fuel generalizing e e' with
  | zero =>
    rcases h.exitCode_cases hR with ⟨code, he, he'⟩ | ⟨reason, he, he'⟩ | ⟨he, he'⟩ <;>
      rw [Execution.drive, Execution.drive, he, he'] <;> exact ⟨rfl, h.trace hR⟩
  | succ fuel ih =>
    rcases h.exitCode_cases hR with ⟨code, he, he'⟩ | ⟨reason, he, he'⟩ | ⟨he, he'⟩
    · rw [Execution.drive, Execution.drive, he, he']
      exact ⟨rfl, h.trace hR⟩
    · rw [Execution.drive, Execution.drive, he, he']
      exact ⟨rfl, h.trace hR⟩
    · -- Neither has ended, so both take a step and go on with less fuel.
      rw [Execution.drive, Execution.drive, he, he']
      have hresult := h.step hR
      have hnext := h.next hR
      rcases hstep : e.step with ⟨result, last⟩
      rcases hstep' : e'.step with ⟨result', last'⟩
      rw [hstep, hstep'] at hresult hnext
      cases hresult with
      | error reason => exact ⟨rfl, h.trace hnext⟩
      | ok => exact ih hnext

/-- Both executions have the same behavior, but for the reason for being stuck. -/
theorem run (h : Simulation f R) (hR : R fuel e e') :
    e'.run fuel = (e.run fuel).mapReason f := by
  obtain ⟨hhalt, htrace⟩ := h.drive hR
  rw [Execution.run, Execution.run]
  rcases hdrive : e.drive fuel with ⟨halt, last⟩
  rcases hdrive' : e'.drive fuel with ⟨halt', last'⟩
  rw [hdrive, hdrive'] at hhalt htrace
  simp only at hhalt htrace
  subst hhalt
  cases halt <;> simp only [Halt.mapReason, Behavior.mapReason, htrace]

end Simulation

end Execution

end RegisterMachine
