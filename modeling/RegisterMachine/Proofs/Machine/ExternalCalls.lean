import RegisterMachine.Proofs.Machine.Simulation
import RegisterMachine.Proofs.Machine.Stepping

/-! # External calls decide a run

All that can differ between two runs from the same state comes from external calls. A step that
performs none does not look at their implementation. A step that performs one hands the same
arguments to every implementation, and the outcome alone decides what the step makes of the state.
So two machines for the same program with different implementations go through the same states
until the first external call, and from there on for as long as the implementations answer alike.

* `Machine.withExternals` — the machine with another implementation of external calls.
* `Machine.Calls`, `Machine.conclude` — the arguments of an external call, and what its outcome
  makes of a state.
* `Machine.step_of_silent`, `Machine.step_of_calls`, `Machine.step_of_refused` — the three kinds of
  steps.
* `Execution.Agrees`, `Execution.AnswersAlike` — executions that differ at most in their external
  calls, and external calls with the same outcome.
* `Execution.Agrees.step`, `Execution.Agrees.after`, `Execution.Agrees.run` — what one step, several
  steps and whole runs make of such executions.
* `Machine.externals_decide` — nothing but the outcomes of external calls decides a run.
-/

namespace RegisterMachine

namespace Machine

variable {σ τ : Type} {m : Machine σ} {externals : Externals τ} {s : State} {host next : σ}
  {host' : τ} {ef : ExternalFunction} {args : List Value} {t : Transition} {e : MemoryError}

/-! ## Steps and their external calls -/

/-- The machine for the same program that performs external calls in another way. -/
def withExternals (m : Machine σ) (externals : Externals τ) : Machine τ :=
  ⟨m.env, m.convention, m.returnAddress, externals⟩

/-- The next step calls an external function with a list of arguments. -/
structure Calls (m : Machine σ) (s : State) (ef : ExternalFunction) (args : List Value) : Prop where
  /-- The function is called. -/
  function : m.env.externalCall? s = some ef
  /-- The arguments are found where the convention puts them. -/
  arguments : m.convention.arguments ef.signature s.regs s.mem s.stack.callerSp = .ok args

/-- What an external call makes of a state: with an outcome its result is bound and its events are
shown, and without one the machine is stuck. -/
def conclude (m : Machine σ) (ef : ExternalFunction) (s : State) :
    Option Outcome → Except Stuck Transition
  | none => .error (.externalCallFailed ef.name)
  | some outcome =>
    .ok ⟨outcome.events, ⟨.returning, s.stack,
      s.regs.set (m.convention.resultRegister ef.signature) outcome.result, s.mem⟩⟩

/-- The next step is an external one if it calls an external function. -/
theorem atExternalStep_eq_false_iff : m.atExternalStep s = false ↔ m.env.externalCall? s = none := by
  rw [atExternalStep, Option.isSome_eq_false_iff, Option.isNone_iff_eq_none]

/-- A call is an external step. -/
theorem Calls.atExternalStep (h : m.Calls s ef args) : m.atExternalStep s = true := by
  rw [Machine.atExternalStep, h.function, Option.isSome_some]

/-- A step that is no external one depends on the program and the return addresses only. -/
theorem step_of_silent (h : m.atExternalStep s = false) (host : σ) :
    m.step s host = ((m.env.silentStep m.returnAddress s).map fun s => ⟨[], s⟩, host) := by
  rw [step, atExternalStep_eq_false_iff.1 h]

/-- A step that calls an external function depends on the implementation for the outcome only. -/
theorem step_of_calls (h : m.Calls s ef args) (host : σ) :
    m.step s host = Prod.map (m.conclude ef s) id (m.externals.call ef args host) := by
  rw [step, h.function]
  simp only [externalStep, h.arguments]
  rcases m.externals.call ef args host with ⟨_ | outcome, next⟩ <;> rfl

/-- Where the arguments cannot be read nothing is called. -/
theorem step_of_refused (hcall : m.env.externalCall? s = some ef)
    (hargs : m.convention.arguments ef.signature s.regs s.mem s.stack.callerSp = .error e)
    (host : σ) : m.step s host = (.error (.memory e), host) := by
  rw [step, hcall]
  simp only [externalStep, hargs]

/-- At an external step arguments are read and passed, or they cannot be read. -/
theorem calls_or_refused (h : m.atExternalStep s = true) :
    (∃ ef args, m.Calls s ef args) ∨
      ∃ ef e, m.env.externalCall? s = some ef ∧
        m.convention.arguments ef.signature s.regs s.mem s.stack.callerSp = .error e := by
  obtain ⟨ef, hcall⟩ := Option.isSome_iff_exists.1 h
  cases hargs : m.convention.arguments ef.signature s.regs s.mem s.stack.callerSp with
  | ok args => exact .inl ⟨ef, args, hcall, hargs⟩
  | error e => exact .inr ⟨ef, e, hcall, hargs⟩

/-- A successful step shows no events, or those of the outcome of its external call. -/
theorem events_of_step (h : m.step s host = (.ok t, next)) :
    (m.atExternalStep s = false ∧ t.events = [] ∧ next = host) ∨
      ∃ ef args outcome, m.Calls s ef args ∧
        m.externals.call ef args host = (some outcome, next) ∧ t.events = outcome.events := by
  cases hexternal : m.atExternalStep s with
  | false =>
    rw [step_of_silent hexternal, Prod.mk.injEq, map_eq_ok_iff] at h
    obtain ⟨⟨s', -, rfl⟩, rfl⟩ := h
    exact .inl ⟨rfl, rfl, rfl⟩
  | true =>
    rcases calls_or_refused hexternal with ⟨ef, args, hcalls⟩ | ⟨ef, e, hcall, hargs⟩
    · rw [step_of_calls hcalls] at h
      rcases hresult : m.externals.call ef args host with ⟨_ | outcome, host₁⟩
      · rw [hresult] at h
        cases h
      · rw [hresult] at h
        cases h
        exact .inr ⟨ef, args, outcome, hcalls, hresult, rfl⟩
    · rw [step_of_refused hcall hargs] at h
      cases h

/-- With both implementations a step has the same result if they answer its call alike. -/
theorem step_withExternals
    (h : ∀ ef args, m.Calls s ef args →
      (externals.call ef args host').1 = (m.externals.call ef args host).1) :
    ((m.withExternals externals).step s host').1 = (m.step s host).1 := by
  cases hexternal : m.atExternalStep s with
  | false =>
    have hexternal' : (m.withExternals externals).atExternalStep s = false := hexternal
    rw [step_of_silent hexternal, step_of_silent hexternal']
    rfl
  | true =>
    rcases calls_or_refused hexternal with ⟨ef, args, hcalls⟩ | ⟨ef, e, hcall, hargs⟩
    · have hcalls' : (m.withExternals externals).Calls s ef args := ⟨hcalls.1, hcalls.2⟩
      rw [step_of_calls hcalls, step_of_calls hcalls']
      exact congrArg (m.conclude ef s) (h ef args hcalls)
    · rw [step_of_refused hcall hargs, step_of_refused (m := m.withExternals externals) hcall hargs]

end Machine

/-! ## Executions with different external calls -/

namespace Execution

variable {σ τ : Type} {m : Machine σ} {externals : Externals τ} {s : State} {host : σ} {host' : τ}
  {e : Execution σ} {e' : Execution τ} {n : Nat}

/-- The next step of an execution performs an external call, which has an outcome or none. -/
def Performs (e : Execution σ) (outcome? : Option Outcome) : Prop :=
  ∃ s ef args, e.status = .live s ∧ e.machine.Calls s ef args ∧
    (e.machine.externals.call ef args e.host).1 = outcome?

/-- If both executions perform an external call next, these have the same outcome, or both have
none. -/
def AnswersAlike (e : Execution σ) (e' : Execution τ) : Prop :=
  ∀ o o', e.Performs o → e'.Performs o' → o' = o

/-- Two executions of the same program have come to the same point: they differ at most in the
implementation of external calls and in its state. -/
structure Agrees (e : Execution σ) (e' : Execution τ) : Prop where
  /-- The machines differ at most in the implementation of external calls. -/
  machine : e'.machine = e.machine.withExternals e'.machine.externals
  /-- The states are the same, or the failures. -/
  status : e'.status = e.status
  /-- The events are the same. -/
  trace : e'.trace = e.trace
  /-- As many steps have been taken. -/
  steps : e'.steps = e.steps

/-- Executions that begin in the same state agree. -/
theorem agrees_start (m : Machine σ) (externals : Externals τ) (s : State) (host : σ) (host' : τ) :
    (start m host s).Agrees (start (m.withExternals externals) host' s) :=
  ⟨rfl, rfl, rfl, rfl⟩

/-- The next step of an execution is no external one. -/
def Silent (e : Execution σ) : Prop := ∀ s, e.state? = some s → e.machine.atExternalStep s = false

/-- Where no external call is performed all implementations answer alike. -/
theorem Silent.answersAlike (h : e.Silent) : e.AnswersAlike e' := by
  rintro _ _ ⟨s, ef, args, hs, hcalls, -⟩
  have hsilent := h s (by rw [state?, hs])
  rw [hcalls.atExternalStep] at hsilent
  cases hsilent

/-- A step that is no external one leaves the external calls and the trace as they are. -/
theorem Silent.step (h : e.Silent) : e.step.2.host = e.host ∧ e.step.2.trace = e.trace := by
  obtain ⟨m, host, status, trace, n⟩ := e
  cases status with
  | wrong reason => exact ⟨rfl, rfl⟩
  | live s =>
    rw [Execution.step, Machine.step_of_silent (h s rfl)]
    cases s.isFinal with
    | true => exact ⟨rfl, rfl⟩
    | false =>
      cases m.env.silentStep m.returnAddress s with
      | error reason => exact ⟨rfl, rfl⟩
      | ok s' =>
        refine ⟨rfl, ?_⟩
        show trace.appendList [] = trace
        simp

/-- Before the first external step the external calls and the trace are as they were. -/
theorem after_of_silent (h : ∀ k < n, (e.after k).Silent) :
    (e.after n).host = e.host ∧ (e.after n).trace = e.trace := by
  induction n with
  | zero => exact ⟨rfl, rfl⟩
  | succ n ih =>
    obtain ⟨hhost, htrace⟩ := ih fun k hk => h k (Nat.lt_succ_of_lt hk)
    obtain ⟨hhost', htrace'⟩ := (h n n.lt_succ_self).step
    exact ⟨hhost'.trans hhost, htrace'.trans htrace⟩

namespace Agrees

/-- Where one of two executions that agree is at no external step the other one is not, either. -/
theorem silent (h : e.Agrees e') (hsilent : e.Silent) : e'.Silent := by
  intro s hs
  rw [h.machine]
  rw [state?, h.status] at hs
  exact hsilent s hs

/-- Executions that agree take a step with the same result, and agree after it, if their external
calls answer alike. -/
theorem step (h : e.Agrees e') (hanswers : e.AnswersAlike e') :
    e'.step.1 = e.step.1 ∧ e.step.2.Agrees e'.step.2 := by
  obtain ⟨m, host, status, trace, n⟩ := e
  obtain ⟨m', host', status', trace', n'⟩ := e'
  obtain ⟨hmachine, hstatus, htrace, hsteps⟩ := h
  change m' = m.withExternals m'.externals at hmachine
  change status' = status at hstatus
  change trace' = trace at htrace
  change n' = n at hsteps
  generalize m'.externals = externals at hmachine
  subst hmachine hstatus htrace hsteps
  cases status' with
  | wrong reason => exact ⟨rfl, rfl, rfl, rfl, rfl⟩
  | live s =>
    have hresult : ((m.withExternals externals).step s host').1 = (m.step s host).1 := by
      refine Machine.step_withExternals fun ef args hcalls => ?_
      exact hanswers _ _ ⟨s, ef, args, rfl, hcalls, rfl⟩
        ⟨s, ef, args, rfl, ⟨hcalls.1, hcalls.2⟩, rfl⟩
    simp only [Execution.step]
    cases s.isFinal with
    | true => exact ⟨rfl, rfl, rfl, rfl, rfl⟩
    | false =>
      generalize m.step s host = r, (m.withExternals externals).step s host' = r' at hresult ⊢
      obtain ⟨result, next⟩ := r
      obtain ⟨result', next'⟩ := r'
      change result' = result at hresult
      subst hresult
      cases result' with
      | ok t => exact ⟨rfl, rfl, rfl, rfl, rfl⟩
      | error reason => exact ⟨rfl, rfl, rfl, rfl, rfl⟩

/-- Executions that agree do so after a number of steps during which their external calls answer
alike. -/
theorem after (h : e.Agrees e') (hanswers : ∀ k < n, (e.after k).AnswersAlike (e'.after k)) :
    (e.after n).Agrees (e'.after n) := by
  induction n with
  | zero => exact h
  | succ n ih =>
    have hagrees := ih fun k hk => hanswers k (Nat.lt_succ_of_lt hk)
    exact (hagrees.step (hanswers n n.lt_succ_self)).2

/-- Executions that agree have the same exit code. -/
theorem exitCode_eq (h : e.Agrees e') : e'.exitCode = e.exitCode := by
  rw [exitCode, exitCode, h.machine, h.status]
  rfl

/-- Executions whose external calls answer alike correspond step by step. -/
theorem simulation :
    Simulation id fun _ (e : Execution σ) (e' : Execution τ) =>
      e.Agrees e' ∧ ∀ k, (e.after k).AnswersAlike (e'.after k) where
  trace := fun ⟨h, _⟩ => h.trace
  exitCode := fun {fuel e e'} ⟨h, _⟩ => by
    rw [h.exitCode_eq]
    exact (Corresponds.same _).imp fun _ _ heq => heq.symm
  step := fun {fuel e e'} ⟨h, hanswers⟩ => by
    rw [(h.step (hanswers 0)).1]
    exact (Corresponds.same _).imp fun _ _ _ => trivial
  next := fun {fuel e e'} ⟨h, hanswers⟩ => by
    refine ⟨(h.step (hanswers 0)).2, fun k => ?_⟩
    have hnext := hanswers (1 + k)
    rwa [after_add, after_add] at hnext

/-- Executions whose external calls answer alike have the same behavior. -/
theorem run (h : e.Agrees e') (hanswers : ∀ k, (e.after k).AnswersAlike (e'.after k)) (fuel : Nat) :
    e'.run fuel = e.run fuel := by
  rw [simulation.run ⟨h, hanswers⟩, Behavior.mapReason_id]

end Agrees

end Execution

namespace Machine

variable {σ τ : Type}

open Execution

/-- Nothing but the outcomes of external calls decides a run. Of a machine and the machine with any
other implementation of external calls it is known that

* a step that is no external one has the same result on both and no events, and leaves both
  implementations in the states in which they are;
* at an external step both implementations get the same arguments and the outcome decides in the
  same way what becomes of the state, or else both steps fail since the arguments cannot be read;
* a successful step has no events if it is no external one, and those of its outcome if it is;
* executions from the same state agree up to the first external step, and nothing has happened to
  the implementations and the trace by then;
* executions from the same state agree for as long as the external calls that they perform after
  equally many steps have the same outcome or both none;
* if they always do all steps have the same events or the same error, and with any budget the
  behavior is the same. -/
theorem externals_decide (m : Machine σ) (externals : Externals τ) :
    (∀ s host host', m.atExternalStep s = false →
      ∃ result, m.step s host = (result, host) ∧
        (m.withExternals externals).step s host' = (result, host') ∧
        ∀ t, result = .ok t → t.events = []) ∧
    (∀ s host host', m.atExternalStep s = true →
      (∃ ef args, m.Calls s ef args ∧
        m.step s host = Prod.map (m.conclude ef s) id (m.externals.call ef args host) ∧
        (m.withExternals externals).step s host' =
          Prod.map (m.conclude ef s) id (externals.call ef args host')) ∨
      ∃ e, m.step s host = (.error (.memory e), host) ∧
        (m.withExternals externals).step s host' = (.error (.memory e), host')) ∧
    (∀ s host t next, m.step s host = (.ok t, next) →
      (m.atExternalStep s = false ∧ t.events = [] ∧ next = host) ∨
      ∃ ef args outcome, m.Calls s ef args ∧
        m.externals.call ef args host = (some outcome, next) ∧ t.events = outcome.events) ∧
    ∀ s host host' (e : Execution σ) (e' : Execution τ), e = start m host s →
      e' = start (m.withExternals externals) host' s →
      (∀ n, (∀ k < n, (e.after k).Silent) → (e.after n).Agrees (e'.after n) ∧
        (e.after n).host = host ∧ (e'.after n).host = host' ∧ (e.after n).trace = #[]) ∧
      (∀ n, (∀ k < n, (e.after k).AnswersAlike (e'.after k)) → (e.after n).Agrees (e'.after n)) ∧
      ((∀ k, (e.after k).AnswersAlike (e'.after k)) →
        (∀ n, (e'.after n).step.1 = (e.after n).step.1) ∧ ∀ fuel, e'.run fuel = e.run fuel) := by
  refine ⟨fun s host host' hsilent => ?_, fun s host host' hexternal => ?_,
    fun s host t next hstep => events_of_step hstep, ?_⟩
  · refine ⟨_, step_of_silent hsilent host,
      step_of_silent (m := m.withExternals externals) hsilent host', fun t ht => ?_⟩
    obtain ⟨s', -, rfl⟩ := map_eq_ok_iff.1 ht
    rfl
  · rcases calls_or_refused hexternal with ⟨ef, args, hcalls⟩ | ⟨ef, e, hcall, hargs⟩
    · exact .inl ⟨ef, args, hcalls, step_of_calls hcalls host,
        step_of_calls (m := m.withExternals externals) ⟨hcalls.1, hcalls.2⟩ host'⟩
    · exact .inr ⟨e, step_of_refused hcall hargs host,
        step_of_refused (m := m.withExternals externals) hcall hargs host'⟩
  · rintro s host host' e e' rfl rfl
    have hstart := agrees_start m externals s host host'
    refine ⟨fun n hsilent => ?_, fun n => hstart.after, fun hanswers => ⟨fun n => ?_, ?_⟩⟩
    · have hagrees : ∀ k ≤ n, ((start m host s).after k).Agrees
          ((start (m.withExternals externals) host' s).after k) := fun k hk =>
        hstart.after fun j hj => (hsilent j (Nat.lt_of_lt_of_le hj hk)).answersAlike
      -- The states are the same, so the other execution is not at an external step either.
      have hsilent' : ∀ k < n, ((start (m.withExternals externals) host' s).after k).Silent :=
        fun k hk => (hagrees k (Nat.le_of_lt hk)).silent (hsilent k hk)
      obtain ⟨hhost, htrace⟩ := after_of_silent hsilent
      exact ⟨hagrees n n.le_refl, hhost, (after_of_silent hsilent').1, htrace⟩
    · exact ((hstart.after fun k _ => hanswers k).step (hanswers n)).1
    · exact hstart.run hanswers

/-- A script with the result that the host primitive has makes no difference. -/
example : (start (printSeven.withExternals .scripted) [.int 0#32] State.printSeven).run 9 =
    (start printSeven () State.printSeven).run 9 := by
  decide +kernel

end Machine

end RegisterMachine
