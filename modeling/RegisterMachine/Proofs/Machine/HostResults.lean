import RegisterMachine.Proofs.Machine.ExternalCalls
import RegisterMachine.Proofs.Machine.RegisterClasses

/-! # Results of host primitives

The host primitives have signatures of their own, and a program may declare others for them. The
argument types that it declares are held against the arguments, so that a primitive which is
declared with argument types of its own making has no outcome. The result type is held against
nothing: every primitive yields an integer, and where a float is declared this integer goes into a
float register.

* `Externals.hostSignature?` — the signatures of the host primitives.
* `Externals.exists_hostCall_iff` — a call has an outcome if the declared argument types are those
  of the primitive and the arguments are of these types.
* `Program.DeclaresHostResults` — primitives are declared with the results that they have.
* `Externals.resultsFit_host_iff` — the programs that host primitives suit.
* `Machine.host_results` — what an external step leaves in the result register.
* `Program.negatePrinted` — a well-formed program with an integer in a float register.
-/

namespace RegisterMachine

variable {p : Program} {ef : ExternalFunction} {v : Value} {args : List Value} {e : EventValue}
  {es : List EventValue} {t : DataType} {ts : List DataType} {outcome : Outcome} {sig : Signature}

/-! ## Arguments of external calls -/

/-- The event form of a value stands for that value. -/
theorem EventValue.ofValue?_eq_some_iff : ofValue? v = some e ↔ v = e.toValue := by
  constructor
  · intro h
    cases v <;> cases h <;> rfl
  · rintro rfl
    exact ofValue?_toValue e

/-- The first of several arguments is a number of the first type. -/
theorem eventArgs?_cons_eq_some_iff :
    eventArgs? (t :: ts) (v :: args) = some es ↔
      ∃ e es', v = e.toValue ∧ e.dataType = t ∧ eventArgs? ts args = some es' ∧ e :: es' = es := by
  simp only [← EventValue.ofValue?_eq_some_iff]
  rw [eventArgs?]
  cases EventValue.ofValue? v with
  | none => simp
  | some e => simp [Option.ite_none_right_eq_some, Option.map_eq_some_iff]

/-- The arguments of an acceptable call are numbers of the declared types, one for each. -/
theorem eventArgs?_eq_some_iff :
    eventArgs? ts args = some es ↔
      args = es.map EventValue.toValue ∧ es.map EventValue.dataType = ts := by
  induction args generalizing ts es with
  | nil => cases ts <;> cases es <;> simp [eventArgs?]
  | cons v args ih =>
    cases ts with
    | nil => cases es <;> simp [eventArgs?]
    | cons t ts =>
      simp only [eventArgs?_cons_eq_some_iff, ih]
      constructor
      · rintro ⟨e, es', rfl, rfl, ⟨rfl, rfl⟩, rfl⟩
        exact ⟨rfl, rfl⟩
      · rintro ⟨hargs, htypes⟩
        obtain ⟨e, es', rfl, rfl, rfl⟩ := List.map_eq_cons_iff.1 hargs.symm
        obtain ⟨rfl, rfl⟩ := List.cons.inj htypes
        exact ⟨e, es', rfl, rfl, ⟨rfl, rfl⟩, rfl⟩

/-! ## Host primitives -/

namespace Externals

/-- The signature of a host primitive, which has an integer result. -/
def hostSignature? : String → Option Signature
  | "print_int" => some ⟨[.int], some .int⟩
  | "print_float" => some ⟨[.float], some .int⟩
  | "putchar" => some ⟨[.int], some .int⟩
  | "abs" => some ⟨[.int], some .int⟩
  | _ => none

/-- Host primitives have integer results. -/
theorem resultType_of_hostSignature? {name : String} (h : hostSignature? name = some sig) :
    sig.resultType = .int := by
  unfold hostSignature? at h
  split at h <;> cases h <;> rfl

/-- A host primitive has an outcome for arguments of the types in its signature, and for no others.
-/
theorem isSome_hostOutcome?_iff :
    (hostOutcome? ef es).isSome = true ↔
      ∃ sig, hostSignature? ef.name = some sig ∧ es.map EventValue.dataType = sig.arguments := by
  constructor
  · intro h
    unfold hostOutcome? at h
    split at h
    case h_5 => cases h
    all_goals
      rename_i hname
      refine ⟨_, by rw [hname]; rfl, ?_⟩
      rfl
  · rintro ⟨sig, hsig, htypes⟩
    unfold hostSignature? at hsig
    split at hsig <;> cases hsig
    all_goals
      -- Every primitive takes one argument, and its type says which number it is.
      rename_i hname
      obtain ⟨e, rfl, he⟩ := List.map_eq_singleton_iff.1 htypes
      cases e <;> cases he
      simp [hostOutcome?, hname]

/-- A call of a host primitive has an outcome if its declared argument types are those of the
primitive and its arguments are numbers of these types. The declared result type plays no part. -/
theorem exists_hostCall_iff (host : Unit) :
    (∃ outcome next, Externals.host.call ef args host = (some outcome, next)) ↔
      ∃ (sig : Signature) (es : List EventValue), hostSignature? ef.name = some sig ∧
        ef.signature.arguments = sig.arguments ∧ es.map EventValue.dataType = sig.arguments ∧
          args = es.map EventValue.toValue := by
  constructor
  · rintro ⟨outcome, next, h⟩
    obtain ⟨es, hes, houtcome⟩ := Option.bind_eq_some_iff.1 (Prod.mk.inj h).1
    obtain ⟨rfl, htypes⟩ := eventArgs?_eq_some_iff.1 hes
    obtain ⟨sig, hsig, harguments⟩ :=
      isSome_hostOutcome?_iff.1 (Option.isSome_iff_exists.2 ⟨outcome, houtcome⟩)
    exact ⟨sig, es, hsig, htypes.symm.trans harguments, harguments, rfl⟩
  · rintro ⟨sig, es, hsig, hdeclared, harguments, rfl⟩
    obtain ⟨outcome, houtcome⟩ :=
      Option.isSome_iff_exists.1 (isSome_hostOutcome?_iff.2 ⟨sig, hsig, harguments⟩)
    have hes : eventArgs? ef.signature.arguments (es.map EventValue.toValue) = some es :=
      eventArgs?_eq_some_iff.2 ⟨rfl, harguments.trans hdeclared.symm⟩
    refine ⟨outcome, host, ?_⟩
    show ((eventArgs? _ _).bind _, host) = _
    rw [hes, Option.bind_some, houtcome]

/-- The outcome of a host primitive is an integer. -/
theorem exists_int_of_hostCall {host next : Unit}
    (h : Externals.host.call ef args host = (some outcome, next)) :
    ∃ n, outcome.result = .int n := by
  obtain ⟨es, -, houtcome⟩ := Option.bind_eq_some_iff.1 (Prod.mk.inj h).1
  exact exists_int_of_hostOutcome? houtcome

end Externals

/-- An integer is of the type of integers only. -/
theorem Value.hasType_int_eq_iff {n : Word} : (Value.int n).HasType t ↔ t = .int := by
  cases t with
  | int => simp
  | float => simp [HasType, fits]

/-- Where a program declares a host primitive with the argument types of that primitive, it declares
the type of its result, too. -/
def Program.DeclaresHostResults (p : Program) : Prop :=
  ∀ (name : String) (ef : ExternalFunction) (sig : Signature),
    (name, .function (.external ef)) ∈ p.globals → Externals.hostSignature? ef.name = some sig →
      ef.signature.arguments = sig.arguments → ef.signature.resultType = sig.resultType

/-- There are arguments of any types. -/
theorem EventValue.exists_map_dataType (ts : List DataType) :
    ∃ es : List EventValue, es.map dataType = ts := by
  induction ts with
  | nil => exact ⟨[], rfl⟩
  | cons t ts ih =>
    obtain ⟨es, rfl⟩ := ih
    cases t with
    | int => exact ⟨.int 0#32 :: es, rfl⟩
    | float => exact ⟨.float ⟨0#64⟩ :: es, rfl⟩

/-- The host primitives suit the programs that declare their results. -/
theorem Externals.resultsFit_host_iff : Externals.host.ResultsFit p ↔ p.DeclaresHostResults := by
  constructor
  · intro h name ef sig hmem hsig harguments
    -- Some call has an outcome, and so the declared result type is that of an integer.
    obtain ⟨es, hes⟩ := EventValue.exists_map_dataType sig.arguments
    obtain ⟨outcome, next, hcall⟩ :=
      (exists_hostCall_iff ()).2 ⟨sig, es, hsig, harguments, hes, rfl⟩
    obtain ⟨n, hn⟩ := exists_int_of_hostCall hcall
    have hfits := h name ef hmem _ _ _ _ hcall
    rw [hn, Value.hasType_int_eq_iff] at hfits
    rw [hfits, resultType_of_hostSignature? hsig]
  · intro h name ef hmem args host outcome next hcall
    obtain ⟨sig, es, hsig, harguments, -, -⟩ := (exists_hostCall_iff host).1 ⟨outcome, next, hcall⟩
    obtain ⟨n, hn⟩ := exists_int_of_hostCall hcall
    rw [hn, Value.hasType_int_eq_iff, h name ef sig hmem hsig harguments,
      resultType_of_hostSignature? hsig]

/-! ## Runs -/

namespace Machine

variable {m : Machine Unit} {c : Configuration Unit}

open Externals

/-- What an external step leaves in the result register. In every run of a well-formed program with
the host primitives and the standard convention:

* an external step succeeds for a primitive only that is declared with its own argument types; its
  outcome and what the result register of the declared signature then holds are one integer, and
  this is of the declared type, and of the class of that register, exactly if the declared type is
  the one that the primitive has;
* the primitives have results of the declared types exactly if all that a program declares with
  their own argument types are declared with their own results, too;
* if so, every register holds a value of its class. -/
theorem host_results (hconv : m.convention = .standard) (hhost : m.externals = .host)
    (hwf : p.WellFormed .standard) (h : m.Reached p c) :
    (∀ ef t next, m.env.externalCall? c.state = some ef → m.step c.state c.host = (.ok t, next) →
      ∃ sig args outcome n r, m.Calls c.state ef args ∧ hostSignature? ef.name = some sig ∧
        ef.signature.arguments = sig.arguments ∧
        Externals.host.call ef args c.host = (some outcome, next) ∧ outcome.result = .int n ∧
        m.convention.resultRegister ef.signature = r ∧ t.state.regs.get r = .int n ∧
        (outcome.result.HasType ef.signature.resultType ↔
          ef.signature.resultType = sig.resultType) ∧
        ((t.state.regs.get r).HasType r.dataType ↔ ef.signature.resultType = sig.resultType)) ∧
    (Externals.host.ResultsFit p ↔ p.DeclaresHostResults) ∧
    (p.DeclaresHostResults → c.state.regs.Typed) := by
  have hclass : m.convention.ClassCorrect := by
    rw [hconv]
    exact Convention.classCorrect_standard
  refine ⟨fun ef t next hcall hstep => ?_, resultsFit_host_iff, fun hdeclares => ?_⟩
  · have hexternal : m.atExternalStep c.state = true := by rw [atExternalStep, hcall]; rfl
    rcases calls_or_refused hexternal with ⟨ef', args, hcalls⟩ | ⟨ef', e, hcall', hargs⟩
    · -- The step has succeeded, so the call has an outcome.
      obtain rfl : ef' = ef := Option.some.inj (hcalls.function.symm.trans hcall)
      rw [step_of_calls hcalls, hhost] at hstep
      rcases hresult : Externals.host.call ef' args c.host with ⟨_ | outcome, next'⟩
      · rw [hresult] at hstep
        cases hstep
      · rw [hresult] at hstep
        cases hstep
        obtain ⟨sig, es, hsig, harguments, -, -⟩ :=
          (exists_hostCall_iff c.host).1 ⟨outcome, _, hresult⟩
        obtain ⟨n, hn⟩ := exists_int_of_hostCall hresult
        refine ⟨sig, args, outcome, n, _, hcalls, hsig, harguments, hresult, hn, rfl, ?_, ?_, ?_⟩
        · rw [RegisterFile.get_set_self, hn]
        · rw [hn, Value.hasType_int_eq_iff, resultType_of_hostSignature? hsig]
        · rw [RegisterFile.get_set_self, hn, Value.hasType_int_eq_iff,
            hclass.dataType_resultRegister, resultType_of_hostSignature? hsig]
    · rw [step_of_refused hcall' hargs] at hstep
      cases hstep
  · refine .of_reached hwf hclass ?_ h
    rw [hhost]
    exact resultsFit_host_iff.2 hdeclares

/-- In `Program.printSeven` a primitive is declared with its own signature and leaves an integer in
an integer register. -/
theorem host_results_printSeven : ∃ (c : Configuration Unit) (ef : ExternalFunction)
    (t : Transition) (next : Unit) (n : Word),
    Machine.printSeven.convention = .standard ∧ Machine.printSeven.externals = .host ∧
    Program.printSeven.WellFormed .standard ∧
    Machine.printSeven.Reached Program.printSeven c ∧
    Machine.printSeven.env.externalCall? c.state = some ef ∧
    Machine.printSeven.step c.state c.host = (.ok t, next) ∧
    Machine.printSeven.convention.resultRegister ef.signature = .int 0 ∧
    t.state.regs.get (.int 0) = .int n := by
  have hwf : Program.printSeven.WellFormed .standard := by decide +kernel
  have hcall : ((Machine.printSeven.after? ⟨State.printSeven, ()⟩ 5).bind fun c =>
      (Machine.printSeven.step c.state c.host).1.toOption.map fun _ =>
        Machine.printSeven.env.externalCall? c.state) =
      some (some ⟨"print_int", ⟨[.int], some .int⟩⟩) := by decide +kernel
  simp only [Option.bind_eq_some_iff, Option.map_eq_some_iff] at hcall
  obtain ⟨c, hc, t, ht, hef⟩ := hcall
  have hstep : Machine.printSeven.step c.state c.host = (.ok t, ()) :=
    Prod.ext (toOption_eq_some_iff.1 ht) rfl
  have hreached : Machine.printSeven.Reached Program.printSeven c :=
    ⟨State.printSeven, (), 5, Program.startsAt_printSeven, hc⟩
  obtain ⟨sig, args, outcome, n, r, -, -, -, -, -, hr, hn, -, -⟩ :=
    (host_results rfl rfl hwf hreached).1 _ _ _ hef hstep
  subst hr
  exact ⟨c, _, t, (), n, rfl, rfl, hwf, hreached, hef, hstep, rfl, hn⟩

end Machine

/-! ## An integer in a float register -/

/-- The entry point has a seven printed, and negates what is then in the register of float results
since the primitive is declared to yield a float. -/
def Program.negatePrinted : Program where
  globals := [
    ("print_int", .function (.external ⟨"print_int", ⟨[.int], some .float⟩⟩)),
    ("main", .function (.internal {
      signature := .main
      code := #[.op (.intConst 7#32) [] Convention.standard.intResult, .call (.symbol "print_int"),
        .op (.unary .negFloat) [Convention.standard.floatResult] Convention.standard.floatResult,
        .op (.intConst 0#32) [] Convention.standard.intResult, .ret]
      frameSize := 8#32
      stackSize := 0#32
      linkSlot := 0#32
      returnSlot := 1#32 }))]
  entry := "main"

/-- The machine with the host primitives on which `Program.negatePrinted` runs. -/
def Machine.negatePrinted : Machine Unit :=
  ⟨⟨Program.negatePrinted.globals.toArray⟩, .standard, .codeOffset, .host⟩

/-- The first state of `Program.negatePrinted`. -/
def State.negatePrinted : State :=
  ⟨.calling 2, [], .empty, ⟨Array.replicate 2 (some (.fresh 0 0))⟩⟩

/-- The program runs on its machine from its first state. -/
theorem Program.startsAt_negatePrinted :
    Program.negatePrinted.StartsAt Machine.negatePrinted State.negatePrinted :=
  .of_symbol? rfl (by decide +kernel) rfl

/-- In a run of a well-formed program an external step can succeed and leave an integer in a float
register, which the next instruction cannot negate. -/
theorem Machine.exists_int_in_floatRegister : ∃ (c : Configuration Unit) (ef : ExternalFunction)
    (t : Transition),
    Program.negatePrinted.WellFormed .standard ∧
    Machine.negatePrinted.Reached Program.negatePrinted c ∧
    Machine.negatePrinted.env.externalCall? c.state = some ef ∧
    Machine.negatePrinted.step c.state c.host = (.ok t, ()) ∧
    ef.signature.resultType = .float ∧
    Machine.negatePrinted.convention.resultRegister ef.signature = .float 0 ∧
    t.state.regs.get (.float 0) = .int 0#32 ∧
    ¬ (t.state.regs.get (.float 0)).HasType (Register.float 0).dataType ∧
    Program.negatePrinted.run {} =
      .ok (.goesWrong [⟨"print_int", [.int 7#32], .int 0#32⟩] (.undefinedOperation "negf")) := by
  have hwf : Program.negatePrinted.WellFormed .standard := by decide +kernel
  have hcall : ((Machine.negatePrinted.after? ⟨State.negatePrinted, ()⟩ 3).bind fun c =>
      (Machine.negatePrinted.step c.state c.host).1.toOption.map fun t =>
        (Machine.negatePrinted.env.externalCall? c.state, t.state.regs.get (.float 0))) =
      some (some ⟨"print_int", ⟨[.int], some .float⟩⟩, .int 0#32) := by decide +kernel
  simp only [Option.bind_eq_some_iff, Option.map_eq_some_iff, Prod.mk.injEq] at hcall
  obtain ⟨c, hc, t, ht, hef, hn⟩ := hcall
  have hstep : Machine.negatePrinted.step c.state c.host = (.ok t, ()) :=
    Prod.ext (toOption_eq_some_iff.1 ht) rfl
  have hrun : (Program.negatePrinted.run {}).toOption =
      some (.goesWrong [⟨"print_int", [.int 7#32], .int 0#32⟩] (.undefinedOperation "negf")) := by
    decide +kernel
  refine ⟨c, _, t, hwf, ⟨State.negatePrinted, (), 3, Program.startsAt_negatePrinted, hc⟩, hef, hstep,
    rfl, rfl, hn, ?_, toOption_eq_some_iff.1 hrun⟩
  rw [hn]
  decide

end RegisterMachine
