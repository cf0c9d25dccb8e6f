import RegisterMachine.Proofs.Machine.Budget

/-! # Stepping by hand

An execution can be advanced step by step before it is driven. Where the steps have led to a state,
or where there is a budget for one more step, what is shown in the end is the behavior of one run
with both budgets together. An execution that has failed is different: it shows the failure when it is
made to take another step, so without a budget it passes for one that is still going on.

* `Execution.after` — the execution after a number of steps, failing ones included.
* `Execution.after_start_of_runs`, `Execution.after_start_of_stuck`,
  `Execution.after_start_of_final` — where these steps lead.
* `Execution.run_after_start` — what is shown after them.
* `Execution.run_after_failure_ne` — an execution that has failed and is said to diverge.
-/

namespace RegisterMachine

namespace Execution

variable {σ : Type} {m : Machine σ} {c c' : Configuration σ} {s : State} {host : σ}
  {e : Execution σ} {reason : Stuck} {j k n fuel : Nat} {events : List Event}

/-! ## Steps whatever they return -/

/-- The execution after a number of steps, whatever each of them returns. -/
def after (e : Execution σ) : (steps : Nat) → Execution σ
  | 0 => e
  | k + 1 => (e.after k).step.2

/-- Steps that follow on steps. -/
theorem after_add : e.after (j + k) = (e.after j).after k := by
  induction k with
  | zero => rfl
  | succ k ih => rw [← Nat.add_assoc, after, ih, after]

/-- Steps do not change an execution that a step does not change. -/
theorem after_of_step_eq (h : e.step.2 = e) : e.after k = e := by
  induction k with
  | zero => rfl
  | succ k ih => rw [after, ih, h]

/-! ## Where steps lead -/

/-- Successful steps of the machine are steps of the execution. -/
theorem after_start_of_runs (h : m.Runs c n events c') :
    (start m c.host c.state).after n = reached m c' events n := by
  induction h with
  | refl => rfl
  | next _ step ih => rw [after, ih, step_reached step]

/-- An execution stays in a final state. -/
theorem after_start_of_final (h : m.Runs c n events c') (hfinal : c'.state.isFinal = true)
    (hle : n ≤ k) : (start m c.host c.state).after k = reached m c' events n := by
  rw [← Nat.add_sub_of_le hle, after_add, after_start_of_runs h]
  apply after_of_step_eq
  simp [reached, step, hfinal]

/-- An execution that fails keeps its failure and its trace. -/
theorem after_start_of_stuck (h : m.Runs c n events c') (hfinal : c'.state.isFinal = false)
    (hfails : (m.step c'.state c'.host).1 = .error reason) (hlt : n < k) :
    ∃ host, (start m c.host c.state).after k = ⟨m, host, .wrong reason, events.toArray, n⟩ := by
  obtain ⟨host, hstep⟩ := step_reached_of_fails hfinal hfails events n
  obtain ⟨rest, rfl⟩ := Nat.exists_eq_add_of_lt hlt
  refine ⟨host, ?_⟩
  have hfirst : (start m c.host c.state).after (n + 1) =
      ⟨m, host, .wrong reason, events.toArray, n⟩ := by
    rw [after, after_start_of_runs h, hstep]
  rw [Nat.add_right_comm, after_add, hfirst]
  exact after_of_step_eq rfl

/-- Steps lead to the configuration after as many successful ones, or to a final state before, or one
of them fails. -/
theorem after_start_cases (m : Machine σ) (s : State) (host : σ) (k : Nat) :
    (∃ n events c, n ≤ k ∧ m.Runs ⟨s, host⟩ n events c ∧ (n = k ∨ c.state.isFinal = true) ∧
      (start m host s).after k = reached m c events n) ∨
    ∃ n events c reason host', n < k ∧ m.Runs ⟨s, host⟩ n events c ∧ c.state.isFinal = false ∧
      (m.step c.state c.host).1 = .error reason ∧
      (start m host s).after k = ⟨m, host', .wrong reason, events.toArray, n⟩ := by
  rcases m.runs_or_fails ⟨s, host⟩ k with
    ⟨events, c, hrun⟩ | ⟨n, events, c, reason, hlt, hrun, hfails⟩
  · exact .inl ⟨k, events, c, k.le_refl, hrun, .inl rfl, after_start_of_runs hrun⟩
  · cases hfinal : c.state.isFinal with
    | true =>
      have hle := Nat.le_of_lt hlt
      exact .inl ⟨n, events, c, hle, hrun, .inr hfinal, after_start_of_final hrun hfinal hle⟩
    | false =>
      obtain ⟨host', hafter⟩ := after_start_of_stuck hrun hfinal hfails hlt
      exact .inr ⟨n, events, c, reason, host', hlt, hrun, hfinal, hfails, hafter⟩

/-! ## Driving an execution after steps -/

/-- An execution that has failed shows its failure if there is a budget for a step. -/
theorem run_succ_wrong {trace : Array Event} :
    (⟨m, host, .wrong reason, trace, n⟩ : Execution σ).run (fuel + 1) =
      .goesWrong trace.toList reason := rfl

/-- An execution that has failed passes for one that goes on if there is no budget. -/
theorem run_zero_wrong {trace : Array Event} :
    (⟨m, host, .wrong reason, trace, n⟩ : Execution σ).run 0 = .diverges trace.toList := rfl

/-- In a final state the exit code is known, or it is known that there is none. -/
theorem exitCode_cases_of_isFinal (h : s.isFinal = true) :
    (∃ code, m.exitCode s = .ok (some code)) ∨ ∃ reason, m.exitCode s = .error reason := by
  rcases hexit : m.exitCode s with reason | code?
  · exact .inr ⟨reason, rfl⟩
  · cases code? with
    | none => exact absurd (Machine.exitCode_eq_none_iff.1 hexit) (by simp [h])
    | some code => exact .inl ⟨code, rfl⟩

/-- An execution that has come to a configuration by successful steps, and has stopped there only if
it is final, shows the behavior of a run with the budget of these steps, too. -/
theorem run_reached_eq_run_start (h : m.Runs c n events c') (hle : n ≤ k)
    (hlast : n = k ∨ c'.state.isFinal = true) :
    (reached m c' events n).run fuel = (start m c.host c.state).run (k + fuel) := by
  rcases hlast with rfl | hfinal
  · exact (run_start_of_runs h).symm
  · have hwithin : n ≤ k + fuel := Nat.le_add_right_of_le hle
    rcases exitCode_cases_of_isFinal (m := m) hfinal with ⟨code, hexit⟩ | ⟨reason, hexit⟩
    · rw [run_reached_of_exit hexit, run_start_of_behaves (.exits h hwithin hexit)]
    · rw [run_reached_of_noCode hexit, run_start_of_behaves (.noCode h hwithin hexit)]

/-- Steps taken by hand count like those of a run. After any number of steps, whatever each of them
returned,

* an execution that has not failed, or that may take another step, shows the behavior of one run
  with both budgets together;
* an execution that has failed stands for a run that goes wrong with its trace, but without a budget
  it is said to diverge;
* an execution in a final state shows the exit code, or that there is none, with any budget. -/
theorem run_after_start (m : Machine σ) (s : State) (host : σ) (k fuel : Nat) :
    (((start m host s).after k).state? ≠ none ∨ 0 < fuel →
      ((start m host s).after k).run fuel = (start m host s).run (k + fuel)) ∧
    (((start m host s).after k).state? = none →
      ((start m host s).after k).run 0 = .diverges ((start m host s).after k).trace.toList ∧
        ∃ reason, (start m host s).run (k + fuel) =
          .goesWrong ((start m host s).after k).trace.toList reason) ∧
    ∀ s', ((start m host s).after k).state? = some s' → s'.isFinal = true →
      (∃ code, m.exitCode s' = .ok (some code) ∧ ((start m host s).after k).run fuel =
        .terminates ((start m host s).after k).trace.toList code) ∨
      ∃ reason, m.exitCode s' = .error reason ∧ ((start m host s).after k).run fuel =
        .goesWrong ((start m host s).after k).trace.toList reason := by
  rcases after_start_cases m s host k with
    ⟨n, events, c, hle, hrun, hlast, hafter⟩ |
      ⟨n, events, c, reason, host', hlt, hrun, hfinal, hfails, hafter⟩
  · -- The steps have led to a state.
    rw [hafter]
    refine ⟨fun _ => run_reached_eq_run_start hrun hle hlast, nofun, fun s' hs' hfinal => ?_⟩
    cases hs'
    rcases exitCode_cases_of_isFinal (m := m) hfinal with ⟨code, hexit⟩ | ⟨reason, hexit⟩
    · exact .inl ⟨code, hexit, run_reached_of_exit hexit⟩
    · exact .inr ⟨reason, hexit, run_reached_of_noCode hexit⟩
  · -- One of the steps has failed, so the run goes wrong with every budget that allows the step.
    have hwrong : ∀ fuel, (start m host s).run (k + fuel) = .goesWrong events reason := fun fuel =>
      run_start_of_behaves (.stuck hrun (Nat.lt_add_right fuel hlt) hfinal hfails)
    rw [hafter, hwrong]
    refine ⟨fun hbudget => ?_, fun _ => ⟨run_zero_wrong, reason, rfl⟩, nofun⟩
    obtain ⟨rest, rfl⟩ : ∃ rest, fuel = rest + 1 :=
      Nat.exists_eq_add_one_of_ne_zero (Nat.ne_of_gt (hbudget.resolve_left fun h => h rfl))
    exact run_succ_wrong

end Execution

/-! ## A failure that is not shown -/

/-- A program whose entry point has no instructions. -/
def Program.withoutCode : Program where
  globals := [
    ("main", .function (.internal {
      signature := .main
      code := #[]
      frameSize := 8#32
      stackSize := 0#32
      linkSlot := 0#32
      returnSlot := 1#32 }))]
  entry := "main"

/-- The entry point is entered, and then there is no instruction. An execution that has failed in this
way is said to diverge if it is driven without a budget, where one run of two steps goes wrong. -/
theorem Execution.run_after_failure_ne :
    ∃ e, Program.withoutCode.execution .standard = .ok e ∧ (e.after 2).run 0 = .diverges [] ∧
      e.run (2 + 0) = .goesWrong [] .endOfCode := by
  have hboth : ((Program.withoutCode.execution .standard).map fun e =>
      ((e.after 2).run 0, e.run (2 + 0))).toOption =
        some (.diverges [], .goesWrong [] .endOfCode) := by
    decide +kernel
  obtain ⟨e, he, hends⟩ := map_eq_ok_iff.1 (toOption_eq_some_iff.1 hboth)
  obtain ⟨hafter, hrun⟩ := Prod.ext_iff.1 hends
  exact ⟨e, he, hafter, hrun⟩

end RegisterMachine
