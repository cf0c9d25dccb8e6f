import RegisterMachine.Proofs.Machine.Bookkeeping
import RegisterMachine.Proofs.Machine.HostResults
import Mathlib.Data.List.Forall2

/-! # External calls under a script

A script answers external calls with results that are fixed in advance. A call takes a result off
the script only once its arguments have been read and found acceptable, and it is shown with the
very result that it takes. So the results of the events and the rest of the script together are the
script at all times, and calls that fail leave no gap.

* `eventArgs?_eq_none_iff` — arguments that are not acceptable.
* `Execution.Answers`, `Execution.Unanswered` — the two ways in which an external step ends.
* `Execution.answered` — the steps that have answered an external call.
* `Execution.FollowsScript`, `Execution.followsScript_start` — what a number of steps do with a
  script.
-/

namespace RegisterMachine

/-! ## Acceptable arguments -/

section Arguments

variable {t : DataType} {ts : List DataType} {v : Value} {args : List Value}

/-- Of several arguments the first one is not a number of its type, or the others are not
acceptable. -/
theorem eventArgs?_cons_eq_none_iff :
    eventArgs? (t :: ts) (v :: args) = none ↔
      (∀ x : EventValue, v = x.toValue → x.dataType ≠ t) ∨ eventArgs? ts args = none := by
  rw [eventArgs?]
  cases hv : EventValue.ofValue? v with
  | none =>
    simp only [true_iff]
    refine .inl fun x hx => ?_
    rw [EventValue.ofValue?_eq_some_iff.2 hx] at hv
    cases hv
  | some x =>
    obtain rfl := EventValue.ofValue?_eq_some_iff.1 hv
    have hnumber : (∀ y : EventValue, x.toValue = y.toValue → y.dataType ≠ t) ↔ x.dataType ≠ t := by
      refine ⟨fun h => h x rfl, fun hne y hy => ?_⟩
      rw [← EventValue.ofValue?_eq_some_iff, EventValue.ofValue?_toValue, Option.some_inj] at hy
      rwa [← hy]
    by_cases ht : x.dataType = t
    · simp [hnumber, ht]
    · simp [hnumber, ht]

/-- Arguments are not acceptable if there are too few or too many of them, or if one of them is not
a number of its type. -/
theorem eventArgs?_eq_none_iff :
    eventArgs? ts args = none ↔
      args.length ≠ ts.length ∨
        ∃ (i : Nat) (t : DataType) (v : Value), ts[i]? = some t ∧ args[i]? = some v ∧
          ∀ x : EventValue, v = x.toValue → x.dataType ≠ t := by
  induction args generalizing ts with
  | nil => cases ts <;> simp [eventArgs?]
  | cons v args ih =>
    cases ts with
    | nil => simp [eventArgs?]
    | cons t ts =>
      rw [eventArgs?_cons_eq_none_iff, ih, List.length_cons, List.length_cons]
      constructor
      · rintro (hv | hlength | ⟨i, t', v', ht', hv', hne⟩)
        · exact .inr ⟨0, t, v, rfl, rfl, hv⟩
        · exact .inl (by omega)
        · exact .inr ⟨i + 1, t', v', ht', hv', hne⟩
      · rintro (hlength | ⟨i, t', v', ht', hv', hne⟩)
        · exact .inr (.inl (by omega))
        · cases i with
          | zero =>
            cases ht'
            cases hv'
            exact .inl hne
          | succ i => exact .inr (.inr ⟨i, t', v', ht', hv', hne⟩)

end Arguments

/-! ## Calls under a script -/

section Calls

variable {ef : ExternalFunction} {args : List Value} {es script : List EventValue} {r : EventValue}

/-- An acceptable call takes the first result off the script. -/
theorem Externals.scripted_call_cons (h : eventArgs? ef.signature.arguments args = some es) :
    scripted.call ef args (r :: script) = (some (.observed ef es r), script) := by
  simp only [scripted, h]

/-- A call that is not acceptable leaves the script as it is. -/
theorem Externals.scripted_call_of_none (h : eventArgs? ef.signature.arguments args = none) :
    scripted.call ef args script = (none, script) := by
  simp only [scripted, h]

/-- No call has an outcome once the script is used up. -/
theorem Externals.scripted_call_nil : scripted.call ef args [] = (none, []) := by
  simp only [scripted]
  cases eventArgs? ef.signature.arguments args <;> rfl

/-- An external call is not made in a final state. -/
theorem Environment.isFinal_eq_false_of_externalCall? {env : Environment} {s : State}
    (h : env.externalCall? s = some ef) : s.isFinal = false := by
  rw [Bool.eq_false_iff]
  intro hfinal
  obtain ⟨b, hcalling, -⟩ := exists_of_externalCall? h
  rw [(State.isFinal_iff.1 hfinal).1] at hcalling
  cases hcalling

end Calls

namespace Execution

variable {σ : Type} {e : Execution (List EventValue)} {s : State} {ef : ExternalFunction}
  {args : List Value} {es : List EventValue} {r : EventValue} {reason : Stuck}
  {script : List EventValue} {n : Nat}

/-! ## One external step -/

/-- Whether the next step of an execution performs an external call. -/
def atExternalStep (e : Execution σ) : Bool :=
  match e.status with
  | .live s => e.machine.atExternalStep s
  | .wrong _ => false

/-- An execution performs an external call if it is in a state that calls an external function. -/
theorem atExternalStep_iff :
    e.atExternalStep = true ↔ ∃ s, e.status = .live s ∧ e.machine.atExternalStep s = true := by
  rw [atExternalStep]
  cases e.status <;> simp

/-- An execution is about to make an acceptable call. -/
structure Asks (e : Execution (List EventValue)) (s : State) (ef : ExternalFunction)
    (es : List EventValue) : Prop where
  /-- The state with the call. -/
  live : e.status = .live s
  /-- The arguments are found where the convention puts them. -/
  calls : e.machine.Calls s ef (es.map EventValue.toValue)
  /-- They are numbers of the declared types, one for each. -/
  types : es.map EventValue.dataType = ef.signature.arguments

/-- An execution answers an acceptable call with a result. -/
structure Answers (e : Execution (List EventValue)) (s : State) (ef : ExternalFunction)
    (es : List EventValue) (r : EventValue) : Prop extends e.Asks s ef es where
  /-- The result is the first one of the script. -/
  head : e.host.head? = some r
  /-- The step takes the result off the script, puts it into the result register and shows the call
  under the name of the function with its arguments and the result. -/
  step_eq : e.step = (.ok [⟨ef.name, es, r⟩],
    ⟨e.machine, e.host.tail,
      .live ⟨.returning, s.stack,
        s.regs.set (e.machine.convention.resultRegister ef.signature) r.toValue, s.mem⟩,
      e.trace.push ⟨ef.name, es, r⟩, e.steps + 1⟩)
  /-- The result register then holds the result, and all other registers hold what they did. -/
  bound : ∃ s', e.step.2.status = .live s' ∧
    s'.regs.get (e.machine.convention.resultRegister ef.signature) = r.toValue ∧
    ∀ reg, reg ≠ e.machine.convention.resultRegister ef.signature →
      s'.regs.get reg = s.regs.get reg

/-- The ways in which an external call is not answered. -/
inductive Unanswered (e : Execution (List EventValue)) : Stuck → Prop where
  /-- An argument cannot be read. -/
  | unread {s : State} {ef : ExternalFunction} {err : MemoryError} (live : e.status = .live s)
      (call : e.machine.env.externalCall? s = some ef)
      (arguments : e.machine.convention.arguments ef.signature s.regs s.mem s.stack.callerSp =
        .error err) : Unanswered e (.memory err)
  /-- There are too few or too many arguments, or one of them is not a number of its type. -/
  | unacceptable {s : State} {ef : ExternalFunction} {args : List Value} (live : e.status = .live s)
      (calls : e.machine.Calls s ef args)
      (wrong : args.length ≠ ef.signature.arguments.length ∨
        ∃ (i : Nat) (t : DataType) (v : Value), ef.signature.arguments[i]? = some t ∧
          args[i]? = some v ∧ ∀ x : EventValue, v = x.toValue → x.dataType ≠ t) :
      Unanswered e (.externalCallFailed ef.name)
  /-- The arguments are acceptable, but the script is used up. -/
  | exhausted {s : State} {ef : ExternalFunction} {es : List EventValue} (asks : e.Asks s ef es)
      (empty : e.host = []) : Unanswered e (.externalCallFailed ef.name)

/-- An external call without outcome leaves the script and the trace as they are. -/
theorem step_of_unanswered (live : e.status = .live s) (hscript : e.machine.externals = .scripted)
    (calls : e.machine.Calls s ef args)
    (hnone : Externals.scripted.call ef args e.host = (none, e.host)) :
    e.step = (.error (.externalCallFailed ef.name),
      ⟨e.machine, e.host, .wrong (.externalCallFailed ef.name), e.trace, e.steps⟩) := by
  have hfinal := Environment.isFinal_eq_false_of_externalCall? calls.function
  refine (Stepped.stuck live hfinal ?_).step_eq
  rw [Machine.step_of_calls calls, hscript, hnone]
  rfl

/-- An acceptable call is answered if there is a result left. -/
theorem Asks.answers (h : e.Asks s ef es) (hscript : e.machine.externals = .scripted)
    (hhost : e.host = r :: script) : e.Answers s ef es r := by
  have hcall : Externals.scripted.call ef (es.map EventValue.toValue) (r :: script) =
      (some (.observed ef es r), script) :=
    Externals.scripted_call_cons (eventArgs?_eq_some_iff.2 ⟨rfl, h.types⟩)
  have hstep : e.machine.step s e.host =
      (.ok ⟨[⟨ef.name, es, r⟩], ⟨.returning, s.stack,
        s.regs.set (e.machine.convention.resultRegister ef.signature) r.toValue, s.mem⟩⟩,
      script) := by
    rw [Machine.step_of_calls h.calls, hscript, hhost, hcall]
    rfl
  have hnext := (Stepped.next h.live hstep).step_eq
  refine ⟨h, by rw [hhost]; rfl, ?_, ?_⟩
  · rw [hnext, hhost]
    rfl
  · rw [hnext]
    exact ⟨_, rfl, RegisterFile.get_set_self _ _ _,
      fun reg hne => RegisterFile.get_set_of_ne _ _ hne.symm⟩

/-- No call is answered once the script is used up. -/
theorem Asks.step_of_exhausted (h : e.Asks s ef es) (hscript : e.machine.externals = .scripted)
    (hhost : e.host = []) :
    e.step = (.error (.externalCallFailed ef.name),
      ⟨e.machine, e.host, .wrong (.externalCallFailed ef.name), e.trace, e.steps⟩) := by
  refine step_of_unanswered h.live hscript h.calls ?_
  rw [hhost, Externals.scripted_call_nil]

/-- Under a script an external call is answered, or it is not and the script and the trace stay as
they are. -/
theorem answers_or_unanswered (hscript : e.machine.externals = .scripted)
    (hexternal : e.atExternalStep = true) :
    (∃ s ef es r, e.Answers s ef es r) ∨
      ∃ reason, e.Unanswered reason ∧
        e.step = (.error reason, ⟨e.machine, e.host, .wrong reason, e.trace, e.steps⟩) := by
  obtain ⟨s, live, hcall⟩ := atExternalStep_iff.1 hexternal
  rcases Machine.calls_or_refused hcall with ⟨ef, args, calls⟩ | ⟨ef, err, call, arguments⟩
  · cases hargs : eventArgs? ef.signature.arguments args with
    | none =>
      exact .inr ⟨_, .unacceptable live calls (eventArgs?_eq_none_iff.1 hargs),
        step_of_unanswered live hscript calls (Externals.scripted_call_of_none hargs)⟩
    | some es =>
      obtain ⟨rfl, types⟩ := eventArgs?_eq_some_iff.1 hargs
      have asks : e.Asks s ef es := ⟨live, calls, types⟩
      rcases hhost : e.host with _ | ⟨r, rest⟩
      · exact .inr ⟨_, .exhausted asks hhost, hhost ▸ asks.step_of_exhausted hscript hhost⟩
      · exact .inl ⟨s, ef, es, r, asks.answers hscript hhost⟩
  · refine .inr ⟨_, .unread live call arguments, Stepped.step_eq (.stuck live ?_ ?_)⟩
    · exact Environment.isFinal_eq_false_of_externalCall? call
    · exact Machine.step_of_refused call arguments e.host

/-- Whether the next step of an execution is an external call that succeeds. -/
def answersCall (e : Execution σ) : Bool := e.atExternalStep && e.step.1.isOk

/-- Under a script the external calls that succeed are those that are answered. -/
theorem exists_answers (hscript : e.machine.externals = .scripted) (h : e.answersCall = true) :
    ∃ s ef es r, e.Answers s ef es r := by
  obtain ⟨hexternal, hok⟩ := Bool.and_eq_true_iff.1 h
  rcases answers_or_unanswered hscript hexternal with hanswers | ⟨reason, -, hstep⟩
  · exact hanswers
  · rw [hstep] at hok
    cases hok

/-- Under a script all other steps leave the script and the trace as they are. -/
theorem step_of_answersCall_eq_false (hscript : e.machine.externals = .scripted)
    (h : e.answersCall = false) : e.step.2.host = e.host ∧ e.step.2.trace = e.trace := by
  by_cases hexternal : e.atExternalStep = true
  · rcases answers_or_unanswered hscript hexternal with
      ⟨s, ef, es, r, hanswers⟩ | ⟨reason, -, hstep⟩
    · rw [answersCall, hexternal, hanswers.step_eq] at h
      cases h
    · rw [hstep]
      exact ⟨rfl, rfl⟩
  · refine Silent.step fun s hs => ?_
    rw [atExternalStep, state?_eq_some_iff.1 hs, Bool.not_eq_true] at hexternal
    exact hexternal

/-! ## Several steps -/

/-- The steps among the first ones that are external calls and succeed, in order. -/
def answered (e : Execution σ) (n : Nat) : List Nat :=
  (List.range n).filter fun k => (e.after k).answersCall

/-- One more step is an external call that succeeds, or it is none of these. -/
theorem answered_succ :
    e.answered (n + 1) = e.answered n ++ if (e.after n).answersCall then [n] else [] := by
  rw [answered, answered, List.range_succ, List.filter_append, List.filter_singleton,
    Bool.cond_eq_ite]

/-- Each event shows a call that has been answered, and each call that has been answered is shown.
-/
theorem forall₂_answered (hscript : e.machine.externals = .scripted) (hnew : e.trace = #[])
    (n : Nat) :
    List.Forall₂ (fun k event => ∃ s ef es r, (e.after k).Answers s ef es r ∧
      event = (⟨ef.name, es, r⟩ : Event)) (e.answered n) (e.after n).trace.toList := by
  induction n with
  | zero =>
    rw [after, hnew]
    exact .nil
  | succ n ih =>
    have hscript' : (e.after n).machine.externals = .scripted := by rw [machine_after, hscript]
    rw [answered_succ, after]
    cases hcall : (e.after n).answersCall with
    | true =>
      obtain ⟨s, ef, es, r, hanswers⟩ := exists_answers hscript' hcall
      rw [hanswers.step_eq, Array.toList_push, if_pos rfl]
      exact List.rel_append ih (.cons ⟨s, ef, es, r, hanswers, rfl⟩ .nil)
    | false =>
      rw [(step_of_answersCall_eq_false hscript' hcall).2, if_neg Bool.false_ne_true,
        List.append_nil]
      exact ih

/-- The results of the events and the rest of the script together stay the same. -/
theorem results_append_host (hscript : e.machine.externals = .scripted) (n : Nat) :
    (e.after n).trace.toList.map Event.result ++ (e.after n).host =
      e.trace.toList.map Event.result ++ e.host := by
  induction n with
  | zero => rfl
  | succ n ih =>
    have hscript' : (e.after n).machine.externals = .scripted := by rw [machine_after, hscript]
    rw [← ih, after]
    cases hcall : (e.after n).answersCall with
    | true =>
      -- The result goes over from the script to the event.
      obtain ⟨s, ef, es, r, hanswers⟩ := exists_answers hscript' hcall
      have hhost : (e.after n).host = r :: (e.after n).host.tail :=
        (List.cons_head?_tail (Option.mem_def.2 hanswers.head)).symm
      rw [hanswers.step_eq, hhost]
      simp
    | false =>
      obtain ⟨hhost, htrace⟩ := step_of_answersCall_eq_false hscript' hcall
      rw [hhost, htrace]

/-- The call that has been answered at a place among all of them is the one that is shown at this
place. -/
theorem exists_answers_of_answered (hscript : e.machine.externals = .scripted)
    (hnew : e.trace = #[]) {i k : Nat} (hi : (e.answered n)[i]? = some k) :
    ∃ s ef es r, (e.after k).Answers s ef es r ∧
      (e.after n).trace[i]? = some ⟨ef.name, es, r⟩ := by
  have hanswered := forall₂_answered hscript hnew n
  have hlt : i < (e.after n).trace.toList.length :=
    hanswered.length_eq ▸ (List.getElem?_eq_some_iff.1 hi).1
  have hevent := List.getElem?_eq_getElem hlt
  have hmem : (k, _) ∈ (e.answered n).zip (e.after n).trace.toList :=
    List.mem_of_getElem? (List.getElem?_zip_eq_some.2 ⟨hi, hevent⟩)
  obtain ⟨s, ef, es, r, hanswers, heq⟩ := List.forall₂_zip hanswered hmem
  rw [heq, Array.getElem?_toList] at hevent
  exact ⟨s, ef, es, r, hanswers, hevent⟩

/-- An event shows the result at its own place in the script, if the script begins with the results
of all events. -/
theorem getElem?_of_results_append {event : Event} {i : Nat} {rest : List EventValue}
    (h : e.trace.toList.map Event.result ++ rest = script) (hi : e.trace[i]? = some event) :
    script[i]? = some event.result := by
  have hresult : (e.trace.toList.map Event.result)[i]? = some event.result := by
    rw [List.getElem?_map, Array.getElem?_toList, hi, Option.map_some]
  rw [← h, List.getElem?_append_left (List.getElem?_eq_some_iff.1 hresult).1, hresult]

/-- What a number of steps do with a script. -/
structure FollowsScript (e : Execution (List EventValue)) (script : List EventValue) (n : Nat) :
    Prop where
  /-- The results of the events are the first ones of the script, and the others are left. -/
  script_eq : (e.after n).trace.toList.map Event.result ++ (e.after n).host = script
  /-- There are as many events as results have been taken off. -/
  size_eq : (e.after n).trace.size = script.length - (e.after n).host.length
  /-- Each event shows the result at its own place in the script. -/
  result : ∀ (i : Nat) (event : Event), (e.after n).trace[i]? = some event →
    script[i]? = some event.result
  /-- There are as many events as external calls that have succeeded. -/
  length_answered : (e.answered n).length = (e.after n).trace.size
  /-- Each external call that has succeeded has been answered with the result at its own place in
  the script, and is shown at this place. -/
  answers : ∀ i k : Nat, (e.answered n)[i]? = some k → ∃ s ef es r, (e.after k).Answers s ef es r ∧
    (e.after n).trace[i]? = some ⟨ef.name, es, r⟩ ∧ script[i]? = some r
  /-- An external call that fails next is not answered for one of three reasons, and leaves the
  script and the trace as they are. -/
  unanswered : ∀ reason, (e.after n).atExternalStep = true → (e.after n).step.1 = .error reason →
    (e.after n).Unanswered reason ∧ (e.after (n + 1)).host = (e.after n).host ∧
      (e.after (n + 1)).trace = (e.after n).trace
  /-- An acceptable call is answered if there is a result left. -/
  answers_next : ∀ s ef es, (e.after n).Asks s ef es → (e.after n).host ≠ [] →
    ∃ r, (e.after n).Answers s ef es r
  /-- An acceptable call is not answered once the script is used up, and each run that comes to it
  goes wrong there. -/
  exhausted : ∀ s ef es, (e.after n).Asks s ef es → (e.after n).host = [] →
    (e.after n).step.1 = .error (.externalCallFailed ef.name) ∧
      ∀ fuel, n < fuel →
        e.run fuel = .goesWrong (e.after n).trace.toList (.externalCallFailed ef.name)

/-- Under a script every execution follows it from its start. -/
theorem followsScript_start (m : Machine σ) (s : State) (script : List EventValue) (n : Nat) :
    (start (m.withExternals .scripted) script s).FollowsScript script n := by
  set e := start (m.withExternals .scripted) script s with he
  have hscript : e.machine.externals = .scripted := rfl
  have hscript' : (e.after n).machine.externals = .scripted := by rw [machine_after, hscript]
  have happend : (e.after n).trace.toList.map Event.result ++ (e.after n).host = script :=
    results_append_host hscript n
  refine ⟨happend, ?_, fun i event => getElem?_of_results_append happend,
    (forall₂_answered hscript rfl n).length_eq, fun i k hi => ?_, fun reason hexternal hfails => ?_,
    fun s ef es asks hleft => ?_, fun s ef es asks hempty => ⟨?_, fun fuel hlt => ?_⟩⟩
  · rw [← happend, List.length_append, List.length_map, Array.length_toList, Nat.add_sub_cancel]
  · obtain ⟨s, ef, es, r, hanswers, hevent⟩ := exists_answers_of_answered hscript rfl hi
    exact ⟨s, ef, es, r, hanswers, hevent, getElem?_of_results_append happend hevent⟩
  · rcases answers_or_unanswered hscript' hexternal with
      ⟨s, ef, es, r, hanswers⟩ | ⟨reason', hunanswered, hstep⟩
    · rw [hanswers.step_eq] at hfails
      cases hfails
    · rw [hstep] at hfails
      cases hfails
      rw [after, hstep]
      exact ⟨hunanswered, rfl, rfl⟩
  · obtain ⟨r, rest, hhost⟩ := List.exists_cons_of_ne_nil hleft
    exact ⟨r, asks.answers hscript' hhost⟩
  · rw [asks.step_of_exhausted hscript' hempty]
  · refine run_start_of_failure (state?_eq_some_iff.2 asks.live) ?_ ?_ hlt
    · exact Environment.isFinal_eq_false_of_externalCall? asks.calls.function
    · rw [← he, asks.step_of_exhausted hscript' hempty]

/-- Of two results the call in the sixth step takes the first one, and nothing takes the other. -/
example :
    let e := start (Machine.printSeven.withExternals .scripted) [.int 3#32, .int 5#32]
      State.printSeven
    e.answered 9 = [5] ∧ (e.after 9).trace = #[⟨"print_int", [.int 7#32], .int 3#32⟩] ∧
      (e.after 9).host = [.int 5#32] := by
  decide +kernel

end Execution

end RegisterMachine
