import RegisterMachine.Proofs.Check.Accepted
import RegisterMachine.Proofs.Evaluation.ResultTypes
import RegisterMachine.Proofs.Machine.Run

/-! # Register classes

In a run of a well-formed program the registers of each class hold values of that class and nothing
else, and so do the arguments that external calls get. This takes a convention whose registers are
of the right classes, and external calls whose results are of the types that the program declares.

* `RegisterFile.Typed` — every register holds a value of its class.
* `Convention.ClassCorrect`, `Externals.ResultsFit` — what is asked of conventions and external
  calls.
* `Convention.hasType_of_arguments` — arguments have the types of the signature.
* `RegisterFile.Typed.of_takes` — steps keep registers typed.
* `Machine.registers_typed` — registers and arguments of external calls are typed throughout.
-/

namespace RegisterMachine

variable {env : Environment} {addresses : ReturnAddresses} {p : Program} {conv : Convention}
  {name : String} {f : Function} {func : BlockId} {sp : Value} {pc : Nat} {stack : CallStack}
  {regs : RegisterFile} {mem mem₀ : Memory} {i : Instruction} {s s' : State} {sig : Signature}

/-! ## Typed registers -/

/-- Every register holds a value of its class, or the undefined value. -/
def RegisterFile.Typed (regs : RegisterFile) : Prop := ∀ r, (regs.get r).HasType r.dataType

namespace RegisterFile.Typed

/-- At first every register is undefined. -/
theorem empty : RegisterFile.empty.Typed := by
  intro r
  rw [get_empty]
  exact Value.hasType_undefined _

/-- A register may be bound to a value of its class. -/
theorem set {dst : Register} {v : Value} (h : regs.Typed) (hv : v.HasType dst.dataType) :
    (regs.set dst v).Typed := by
  intro r
  by_cases hr : dst = r
  · subst hr
    rwa [get_set_self]
  · rw [get_set_of_ne regs v hr]
    exact h r

end RegisterFile.Typed

/-! ## Conventions -/

/-- A convention is class correct if it puts integers into integer registers and floats into float
registers. -/
structure Convention.ClassCorrect (conv : Convention) : Prop where
  /-- Integer arguments are in integer registers. -/
  intParams : ∀ r ∈ conv.intParams, r.dataType = .int
  /-- Float arguments are in float registers. -/
  floatParams : ∀ r ∈ conv.floatParams, r.dataType = .float
  /-- An integer result is in an integer register. -/
  intResult : conv.intResult.dataType = .int
  /-- A float result is in a float register. -/
  floatResult : conv.floatResult.dataType = .float

/-- The result of a call is in a register of its class. -/
theorem Convention.ClassCorrect.dataType_resultRegister (h : conv.ClassCorrect)
    (sig : Signature) : (conv.resultRegister sig).dataType = sig.resultType := by
  unfold resultRegister Signature.resultType
  split
  · rename_i hresult
    rw [h.floatResult, hresult]
    rfl
  · rename_i hresult
    rw [h.intResult, hresult]
    rfl
  · rename_i hresult
    rw [h.intResult, hresult]
    rfl

/-- The standard convention puts values into registers of their classes. -/
theorem Convention.classCorrect_standard : standard.ClassCorrect :=
  ⟨by decide, by decide, rfl, rfl⟩

/-- The type of the values for which a location is meant. -/
def Location.dataType : Location → DataType
  | .register r => r.dataType
  | .outgoing _ t => t

/-- Arguments are placed in locations of their types. -/
theorem Convention.map_dataType_place {ints floats : List Register} {slot : Nat}
    {ts : List DataType} (hints : ∀ r ∈ ints, r.dataType = .int)
    (hfloats : ∀ r ∈ floats, r.dataType = .float) :
    (place ints floats slot ts).map Location.dataType = ts := by
  induction ts generalizing ints floats slot with
  | nil => cases ints <;> cases floats <;> rfl
  | cons t ts ih =>
    cases t with
    | int =>
      cases ints with
      | nil => rw [place, List.map_cons, ih hints hfloats, Location.dataType]
      | cons r ints =>
        rw [place, List.map_cons, ih (fun r hr => hints r (by simp [hr])) hfloats,
          Location.dataType, hints r (by simp)]
    | float =>
      cases floats with
      | nil => rw [place, List.map_cons, ih hints hfloats, Location.dataType]
      | cons r floats =>
        rw [place, List.map_cons, ih hints (fun r hr => hfloats r (by simp [hr])),
          Location.dataType, hfloats r (by simp)]

/-- The value at a location is of the type of the location while registers are typed. -/
theorem Location.hasType_of_value {loc : Location} {v : Value} (h : regs.Typed)
    (hv : loc.value regs mem sp = .ok v) : v.HasType loc.dataType := by
  cases loc with
  | register r =>
    cases hv
    exact h r
  | outgoing slot t => exact Memory.hasType_of_loadSlot hv

/-- There is one argument for each type of the signature, and it has that type. -/
theorem Convention.hasType_of_arguments {args : List Value} (hconv : conv.ClassCorrect)
    (hregs : regs.Typed) (h : conv.arguments sig regs mem sp = .ok args) :
    args.length = sig.arguments.length ∧
      ∀ (i : Nat) (v : Value) (t : DataType), args[i]? = some v → sig.arguments[i]? = some t →
        v.HasType t := by
  have htypes : (conv.locations sig).map Location.dataType = sig.arguments :=
    map_dataType_place hconv.intParams hconv.floatParams
  obtain ⟨hlength, hget⟩ := getElem?_of_mapM_eq_ok h
  refine ⟨by rw [hlength, ← htypes, List.length_map], fun i v t hi ht => ?_⟩
  obtain ⟨loc, hloc, hv⟩ := hget i v hi
  rw [← htypes, List.getElem?_map, hloc, Option.map_some, Option.some.injEq] at ht
  rw [← ht]
  exact Location.hasType_of_value hregs hv

/-! ## Operands -/

/-- A register of the class that its position asks for is not wrong. -/
theorem classViolations_eq_nil_iff {t : DataType} {r : Register} :
    classViolations name pc t r = [] ↔ r.dataType = t :=
  ite_singleton_eq_nil_iff

/-- The destination of an operation is of the class of the result; that of a move is of the class of
the argument. -/
theorem operationViolations_eq_nil {op : Operation} {args : List Register} {dst : Register}
    (h : operationViolations name pc op args dst = []) :
    op.resultType? = some dst.dataType ∨
      op = .move ∧ ∀ r ∈ args, r.dataType = dst.dataType := by
  unfold operationViolations at h
  split at h
  · rename_i argument result _ hresult
    rw [List.append_eq_nil_iff, classViolations_eq_nil_iff] at h
    rw [hresult, h.2]
    exact .inl rfl
  · -- Only a move has neither an argument type nor a result type of its own.
    rename_i hnone
    have hmove : op = .move := by
      cases op with
      | move => rfl
      | _ => exact absurd rfl (hnone _ _ rfl)
    rw [List.flatMap_eq_nil_iff] at h
    exact .inr ⟨hmove, fun r hr => classViolations_eq_nil_iff.1 (h r hr)⟩

/-! ## External calls -/

/-- The results of external calls have the types that a program declares. -/
def Externals.ResultsFit {σ : Type} (externals : Externals σ) (p : Program) : Prop :=
  ∀ (name : String) (ef : ExternalFunction), (name, .function (.external ef)) ∈ p.globals →
    ∀ (args : List Value) (host : σ) (outcome : Outcome) (host' : σ),
      externals.call ef args host = (some outcome, host') →
        outcome.result.HasType ef.signature.resultType

/-- Host primitives yield integers. -/
theorem Externals.exists_int_of_hostOutcome? {ef : ExternalFunction} {args : List EventValue}
    {outcome : Outcome} (h : hostOutcome? ef args = some outcome) :
    ∃ n, outcome.result = .int n := by
  unfold hostOutcome? at h
  split at h <;> cases h <;> exact ⟨_, rfl⟩

/-- Host primitives suit a program that declares its external functions without float results. -/
theorem Externals.resultsFit_host
    (h : ∀ name ef, (name, .function (.external ef)) ∈ p.globals → ef.signature.resultType = .int) :
    Externals.host.ResultsFit p := by
  intro name ef hmem args host outcome host' hcall
  have houtcome := (Prod.mk.inj hcall).1
  obtain ⟨es, -, hes⟩ := Option.bind_eq_some_iff.1 houtcome
  obtain ⟨n, hn⟩ := exists_int_of_hostOutcome? hes
  rw [hn, h name ef hmem]
  exact Value.hasType_int n

/-! ## Steps -/

namespace RegisterFile.Typed

/-- Instructions of accepted functions keep registers typed. -/
theorem of_executes (ha : p.Accepts conv name f) (h : regs.Typed) (fetch : f.code[pc]? = some i)
    (executes : Executes env addresses f func sp pc stack regs mem i s') : s'.regs.Typed := by
  have hoperands := ha.operands pc i fetch
  cases executes with
  | label => exact h
  | getStack read =>
    refine h.set ?_
    rw [classViolations_eq_nil_iff.1 hoperands]
    exact Memory.hasType_of_loadSlot read
  | setStack written => exact h
  | getParam link read =>
    refine h.set ?_
    rw [classViolations_eq_nil_iff.1 hoperands]
    exact Memory.hasType_of_loadSlot read
  | op result =>
    refine h.set ?_
    rcases operationViolations_eq_nil (List.append_eq_nil_iff.1 hoperands).2 with
      hresult | ⟨rfl, hclass⟩
    · exact Operation.hasType_of_eval? result hresult
    · -- A move takes the value of its only argument register.
      have hargs := Operation.eval?_move_eq_some_iff.1 result
      rw [getList, List.map_eq_singleton_iff] at hargs
      obtain ⟨r, rfl, rfl⟩ := hargs
      rw [← hclass r (by simp)]
      exact h r
  | load address read =>
    refine h.set ?_
    rw [classViolations_eq_nil_iff.1 (List.append_eq_nil_iff.1 hoperands).2]
    exact Memory.hasType_of_loadAt read
  | store address written => exact h
  | call resolved returns => exact h
  | tailCall resolved released => exact h
  | goto jump => exact h
  | condTaken holds jump => exact h
  | condPassed fails => exact h
  | jumpTable index nonneg target jump => exact h
  | ret released => exact h

/-- Steps of a well-formed program keep registers typed. -/
theorem of_takes {σ : Type} {m : Machine σ} {host host' : σ} {t : Transition}
    (hwf : p.WellFormed conv) (hloads : p.Loads m.env mem₀) (hconv : m.convention.ClassCorrect)
    (hexternals : m.externals.ResultsFit p) (h : s.regs.Typed)
    (htakes : m.Takes s host t host') : t.state.regs.Typed := by
  cases htakes with
  | silent step =>
    cases step with
    | execute function fetch executes =>
      obtain ⟨name, ha⟩ := hwf.accepts_of_function? hloads function
      exact of_executes ha h fetch executes
    | enter function entered => exact h
    | resume => exact h
  | external call arguments result =>
    -- The result has the declared type, and so has the register of the convention for it.
    refine h.set ?_
    rw [hconv.dataType_resultRegister]
    obtain ⟨b, -, hb⟩ := Environment.exists_of_externalCall? call
    obtain ⟨name, hmem⟩ := hloads.mem_of_function? hb
    exact hexternals name _ hmem _ _ _ _ result

/-- Throughout a run of a well-formed program registers are typed. -/
theorem of_reached {σ : Type} {m : Machine σ} {c : Configuration σ} (hwf : p.WellFormed conv)
    (hconv : m.convention.ClassCorrect) (hexternals : m.externals.ResultsFit p)
    (h : m.Reached p c) : c.state.regs.Typed := by
  obtain ⟨mem₀, hload⟩ := h.load
  refine h.invariant (I := fun s => s.regs.Typed) (fun s hstart => ?_) ?_
  · obtain ⟨b, -, -, heq⟩ := hstart.eq
    rw [heq]
    exact empty
  · intro s host t host' _ hs htakes
    exact hs.of_takes hwf (Program.loads_of_load hload) hconv hexternals htakes

end RegisterFile.Typed

/-! ## Runs -/

namespace Machine

variable {σ : Type} {m : Machine σ} {c : Configuration σ}

/-- Registers and the arguments of external calls are typed throughout. In every run of a
well-formed program, under a class-correct convention and with external calls whose results have the
types that the program declares:

* integer registers hold integers, pointers and the undefined value;
* float registers hold doubles and the undefined value;
* an external call gets one argument for each type of its signature, and it has that type. -/
theorem registers_typed (hwf : p.WellFormed conv) (hconv : m.convention.ClassCorrect)
    (hexternals : m.externals.ResultsFit p) (h : m.Reached p c) :
    (∀ n, (∃ w, c.state.regs.get (.int n) = .int w) ∨
      (∃ b o, c.state.regs.get (.int n) = .ptr b o) ∨ c.state.regs.get (.int n) = .undefined) ∧
    (∀ n, (∃ x, c.state.regs.get (.float n) = .float x) ∨
      c.state.regs.get (.float n) = .undefined) ∧
    ∀ ef args, m.env.externalCall? c.state = some ef →
      m.convention.arguments ef.signature c.state.regs c.state.mem c.state.stack.callerSp =
        .ok args →
      args.length = ef.signature.arguments.length ∧
        ∀ (i : Nat) (v : Value) (t : DataType), args[i]? = some v →
          ef.signature.arguments[i]? = some t → v.HasType t := by
  have htyped : c.state.regs.Typed := .of_reached hwf hconv hexternals h
  refine ⟨fun n => Value.hasType_int_iff.1 (htyped (.int n)),
    fun n => Value.hasType_float_iff.1 (htyped (.float n)), fun ef args _ hargs => ?_⟩
  exact Convention.hasType_of_arguments hconv htyped hargs

/-- `Program.printSeven` calls the external function that prints with one argument, an integer. -/
theorem registers_typed_printSeven : ∃ (c : Configuration Unit) (ef : ExternalFunction) (v : Value),
    Program.printSeven.WellFormed Machine.printSeven.convention ∧
    Machine.printSeven.convention.ClassCorrect ∧
    Machine.printSeven.externals.ResultsFit Program.printSeven ∧
    Machine.printSeven.Reached Program.printSeven c ∧
    Machine.printSeven.env.externalCall? c.state = some ef ∧
    Machine.printSeven.convention.arguments ef.signature c.state.regs c.state.mem
      c.state.stack.callerSp = .ok [v] ∧ v.HasType .int := by
  have hsome : (Machine.printSeven.after? ⟨State.printSeven, ()⟩ 5).isSome = true := by
    decide +kernel
  obtain ⟨c, hc⟩ := Option.isSome_iff_exists.1 hsome
  have hcall : (Machine.printSeven.after? ⟨State.printSeven, ()⟩ 5).map
      (fun c => (Machine.printSeven.env.externalCall? c.state, c.state.regs.get (.int 0))) =
        some (some ⟨"print_int", ⟨[.int], some .int⟩⟩, .int 7#32) := by
    decide +kernel
  rw [hc, Option.map_some, Option.some.injEq, Prod.mk.injEq] at hcall
  have hwf : Program.printSeven.WellFormed Machine.printSeven.convention := by decide +kernel
  have hconv : Machine.printSeven.convention.ClassCorrect :=
    ⟨by decide, by decide, rfl, rfl⟩
  have hexternals : Machine.printSeven.externals.ResultsFit Program.printSeven := by
    apply Externals.resultsFit_host
    intro name ef hmem
    simp only [Program.printSeven, List.mem_cons, Prod.mk.injEq, Global.function.injEq,
      FunctionDef.external.injEq, reduceCtorEq, and_false, List.not_mem_nil, or_false,
      false_or] at hmem
    rw [hmem.2]
    rfl
  have hreached : Machine.printSeven.Reached Program.printSeven c :=
    ⟨State.printSeven, (), 5, Program.startsAt_printSeven, hc⟩
  have hargs : Machine.printSeven.convention.arguments ⟨[.int], some .int⟩ c.state.regs c.state.mem
      c.state.stack.callerSp = .ok [.int 7#32] := by
    rw [← hcall.2]
    rfl
  have hmain := (registers_typed hwf hconv hexternals hreached).2.2 _ _ hcall.1 hargs
  exact ⟨c, _, _, hwf, hconv, hexternals, hreached, hcall.1, hargs, hmain.2 0 _ _ rfl rfl⟩

end Machine

end RegisterMachine
