import RegisterMachine.Evaluation
import RegisterMachine.Proofs.Memory.Bounds

/-! # Types of results

Whatever its arguments are, an operation that has a result has one of its result type, and so has an
access to memory: reading cells as a chunk makes a value of the type of the chunk. A move has no
result type of its own and keeps its argument.

* `Value.hasType_int_iff`, `Value.hasType_float_iff` — the kinds of values that a type admits.
* `Operation.hasType_of_eval?` — results of operations.
* `Memory.hasType_of_loadAt`, `Memory.hasType_of_loadSlot` — values that are read from memory.
-/

namespace RegisterMachine

/-! ## Kinds of values -/

namespace Value

variable {v w : Value}

/-- Integer locations hold integers, pointers and the undefined value. -/
theorem hasType_int_iff :
    v.HasType .int ↔ (∃ n, v = .int n) ∨ (∃ b o, v = .ptr b o) ∨ v = .undefined := by
  cases v <;> simp [HasType, fits]

/-- Float locations hold doubles and the undefined value. -/
theorem hasType_float_iff : v.HasType .float ↔ (∃ x, v = .float x) ∨ v = .undefined := by
  cases v <;> simp [HasType, fits]

/-- An integer is an integer. -/
@[simp] theorem hasType_int (n : Word) : HasType (.int n) .int := rfl

/-- A double is a float. -/
@[simp] theorem hasType_float (x : Double) : HasType (.float x) .float := rfl

/-- The undefined value fits everywhere. -/
@[simp] theorem hasType_undefined (t : DataType) : HasType .undefined t := rfl

/-- Sums are integers or pointers. -/
theorem hasType_of_add {r : Value} (h : v.add w = some r) : r.HasType .int := by
  unfold add at h
  split at h <;> cases h <;> rfl

/-- Differences are integers or pointers. -/
theorem hasType_of_sub {r : Value} (h : v.sub w = some r) : r.HasType .int := by
  unfold sub at h
  split at h
  · cases h
    rfl
  · cases h
    rfl
  · split at h <;> cases h
    rfl
  · cases h

/-- An operation on an integer has results of the type of its values there. -/
theorem hasType_of_onWord {f : Word → Option Value} {r : Value} {t : DataType}
    (hf : ∀ a r, f a = some r → r.HasType t) (h : onWord f v = some r) : r.HasType t := by
  unfold onWord at h
  split at h
  · exact hf _ _ h
  · cases h

/-- An operation on a double has results of the type of its values there. -/
theorem hasType_of_onDouble {f : Double → Option Value} {r : Value} {t : DataType}
    (hf : ∀ x r, f x = some r → r.HasType t) (h : onDouble f v = some r) : r.HasType t := by
  unfold onDouble at h
  split at h
  · exact hf _ _ h
  · cases h

/-- An operation on integers has integer results. -/
theorem hasType_of_onWords {f : Word → Word → Option Word} {r : Value}
    (h : onWords f v w = some r) : r.HasType .int := by
  unfold onWords at h
  split at h
  · obtain ⟨n, -, rfl⟩ := Option.map_eq_some_iff.1 h
    rfl
  · cases h

/-- An operation on doubles has doubles as results. -/
theorem hasType_of_onDoubles {f : Double → Double → Double} {r : Value}
    (h : onDoubles f v w = some r) : r.HasType .float := by
  unfold onDoubles at h
  split at h
  · cases h
    rfl
  · cases h

end Value

/-! ## Results of operations -/

section Results

variable {env : Environment} {sp v w r : Value} {args : List Value}

/-- Results of unary operators have the type that the operator says. -/
theorem UnaryOp.hasType_of_apply {op : UnaryOp} (h : op.apply v = some r) :
    r.HasType op.resultType := by
  cases op with
  | negFloat | absFloat | singleOfFloat =>
    refine Value.hasType_of_onDouble (fun x r hr => ?_) h
    cases hr
    rfl
  | intOfFloat =>
    refine Value.hasType_of_onDouble (fun x r hr => ?_) h
    obtain ⟨n, -, rfl⟩ := Option.map_eq_some_iff.1 hr
    rfl
  | _ =>
    refine Value.hasType_of_onWord (fun a r hr => ?_) h
    cases hr
    rfl

/-- Results of binary operators have the type of the operator. -/
theorem BinaryOp.hasType_of_apply {op : BinaryOp} (h : op.apply v w = some r) :
    r.HasType op.dataType := by
  cases op with
  | add => exact Value.hasType_of_add h
  | sub => exact Value.hasType_of_sub h
  | addFloat | subFloat | mulFloat | divFloat => exact Value.hasType_of_onDoubles h
  | _ => exact Value.hasType_of_onWords h

/-- Operators with a constant have integer results. -/
theorem ImmediateOp.hasType_of_apply {op : ImmediateOp} {n : Word} (h : op.apply n v = some r) :
    r.HasType .int := by
  -- Each of them is a binary operator on integers.
  unfold apply at h
  split at h <;> exact (BinaryOp.hasType_of_apply h :)

/-- The address of a symbol is a pointer. -/
theorem Environment.hasType_of_address? {symbol : String} {offset : Word}
    (h : env.address? symbol offset = some r) : r.HasType .int := by
  obtain ⟨b, -, rfl⟩ := Option.map_eq_some_iff.1 h
  rfl

/-- A move keeps its only argument. -/
theorem Operation.eval?_move_eq_some_iff :
    Operation.move.eval? env sp args = some r ↔ args = [r] := by
  constructor
  · intro h
    unfold eval? at h
    split at h <;> simp_all
  · rintro rfl
    rfl

/-- Results of operations other than moves have the result type of the operation. -/
theorem Operation.hasType_of_eval? {op : Operation} {t : DataType}
    (h : op.eval? env sp args = some r) (ht : op.resultType? = some t) : r.HasType t := by
  unfold eval? at h
  split at h
  · -- A move has no result type of its own.
    cases ht
  · cases h
    cases ht
    rfl
  · cases h
    cases ht
    rfl
  · cases ht
    exact Environment.hasType_of_address? h
  · cases ht
    exact Value.hasType_of_add h
  · cases ht
    exact UnaryOp.hasType_of_apply h
  · cases ht
    exact BinaryOp.hasType_of_apply h
  · cases ht
    exact ImmediateOp.hasType_of_apply h
  · obtain ⟨b, -, rfl⟩ := Option.map_eq_some_iff.1 h
    cases ht
    rfl
  · cases h

end Results

/-! ## Values in memory -/

/-- Numbers are read as values of the type of the chunk. -/
theorem Chunk.hasType_ofNumber (c : Chunk) (n : Nat) : (c.ofNumber n).HasType c.dataType := by
  cases c <;> rfl

/-- Cells are read as values of the type of the chunk. Only a chunk that holds integers reads
pointers. -/
theorem Chunk.hasType_decode (c : Chunk) (cells : List Cell) :
    (c.decode cells).HasType c.dataType := by
  unfold decode
  split
  · exact hasType_ofNumber c _
  · -- Cells that are not all bytes hold a pointer at most, and only a chunk of its size reads it.
    split
    · rename_i hc
      subst hc
      cases hp : Cell.pointer? cells with
      | none => rfl
      | some v =>
        obtain ⟨b, o, rfl, -⟩ := Cell.eq_fragments_of_pointer? hp
        rfl
    · rfl

namespace Memory

variable {m : Memory} {c : Chunk} {a v sp : Value} {t : DataType} {slot : Word}

/-- A value that is read through a pointer has the type of the chunk. -/
theorem hasType_of_loadAt (h : m.loadAt c a = .ok v) : v.HasType c.dataType := by
  cases a with
  | ptr b o =>
    obtain ⟨r, -, -, rfl⟩ := load_eq_ok_iff.1 h
    exact Chunk.hasType_decode c _
  | int n => cases h
  | float x => cases h
  | undefined => cases h

/-- A value that is read from a slot has the type of the slot. -/
theorem hasType_of_loadSlot (h : m.loadSlot sp t slot = .ok v) : v.HasType t := by
  obtain ⟨a, -, ha⟩ := bind_eq_ok_iff.1 h
  have htype := hasType_of_loadAt ha
  rwa [Chunk.dataType_slotChunk] at htype

end Memory

end RegisterMachine
