import RegisterMachine.Evaluation
import RegisterMachine.Proofs.Results

/-! # Renaming blocks in values

A block number means nothing but the identity of its block. If blocks are renamed, different ones to
different ones, every evaluation gives the renamed result, and no comparison or operator turns a
block number into a number.

* `Value.rename` — a value in which blocks are renamed.
* `Value.add_rename`, `UnaryOp.apply_rename`, `BinaryOp.apply_rename`, `ImmediateOp.apply_rename` —
  operators on renamed values.
* `Condition.eval?_rename` — conditions do not see a renaming.
* `Environment.Renames` — environments whose blocks are those of another one, renamed.
* `Operation.eval?_rename`, `Addressing.eval?_rename` — evaluation under a renaming.
-/

namespace RegisterMachine

/-! ## Values -/

variable {ρ : BlockId → BlockId}

namespace Value

/-- The value in which a block is renamed. -/
def rename (ρ : BlockId → BlockId) : Value → Value
  | .ptr b o => .ptr (ρ b) o
  | v => v

@[simp] theorem rename_int (n : Word) : (Value.int n).rename ρ = .int n := rfl

@[simp] theorem rename_float (x : Double) : (Value.float x).rename ρ = .float x := rfl

@[simp] theorem rename_ptr (b : BlockId) (o : Word) :
    (Value.ptr b o).rename ρ = .ptr (ρ b) o := rfl

@[simp] theorem rename_undefined : Value.undefined.rename ρ = .undefined := rfl

@[simp] theorem rename_zero : Value.zero.rename ρ = .zero := rfl

/-- Different values stay different. -/
theorem rename_injective (hρ : Function.Injective ρ) : Function.Injective (rename ρ) := by
  intro v w h
  cases v <;> cases w <;> simp_all [rename, hρ.eq_iff]

/-! ## Operators -/

/-- Sums of renamed values are renamed. -/
theorem add_rename (v w : Value) :
    (v.rename ρ).add (w.rename ρ) = (v.add w).map (rename ρ) := by
  cases v <;> cases w <;> rfl

/-- Differences of renamed values are renamed. -/
theorem sub_rename (hρ : Function.Injective ρ) (v w : Value) :
    (v.rename ρ).sub (w.rename ρ) = (v.sub w).map (rename ρ) := by
  cases v with
  | ptr b o =>
    cases w with
    | ptr b' o' =>
      -- A distance is a number, and it exists within one block only.
      simp only [rename_ptr, sub, hρ.eq_iff]
      split <;> rfl
    | int n => rfl
    | float x => rfl
    | undefined => rfl
  | int n => cases w <;> rfl
  | float x => cases w <;> rfl
  | undefined => cases w <;> rfl

/-- What an operation makes of an integer does not depend on a renaming. -/
theorem onWord_rename {f : Word → Option Value} (hf : ∀ n, (f n).map (rename ρ) = f n) (v : Value) :
    onWord f (v.rename ρ) = (onWord f v).map (rename ρ) := by
  cases v with
  | int n => exact (hf n).symm
  | float x => rfl
  | ptr b o => rfl
  | undefined => rfl

/-- What an operation makes of a double does not depend on a renaming. -/
theorem onDouble_rename {f : Double → Option Value} (hf : ∀ x, (f x).map (rename ρ) = f x)
    (v : Value) : onDouble f (v.rename ρ) = (onDouble f v).map (rename ρ) := by
  cases v with
  | float x => exact (hf x).symm
  | int n => rfl
  | ptr b o => rfl
  | undefined => rfl

/-- What an operation makes of two integers does not depend on a renaming. -/
theorem onWords_rename (f : Word → Word → Option Word) (v w : Value) :
    onWords f (v.rename ρ) (w.rename ρ) = (onWords f v w).map (rename ρ) := by
  cases v with
  | int a =>
    cases w with
    | int b => cases h : f a b <;> simp [onWords, h]
    | float x => rfl
    | ptr b o => rfl
    | undefined => rfl
  | float x => rfl
  | ptr b o => rfl
  | undefined => rfl

/-- What an operation makes of two doubles does not depend on a renaming. -/
theorem onDoubles_rename (f : Double → Double → Double) (v w : Value) :
    onDoubles f (v.rename ρ) (w.rename ρ) = (onDoubles f v w).map (rename ρ) := by
  cases v <;> cases w <;> rfl

/-! ## Comparisons -/

/-- Comparisons of pointers do not see a renaming. -/
theorem comparePointers?_rename (hρ : Function.Injective ρ) (c : Comparison)
    (sameBlock : Word → Word → Bool) (v w : Value) :
    comparePointers? c sameBlock (v.rename ρ) (w.rename ρ) = comparePointers? c sameBlock v w := by
  cases v <;> cases w <;> simp [comparePointers?, hρ.eq_iff]

/-- Signed comparisons do not see a renaming. -/
theorem compareSigned?_rename (hρ : Function.Injective ρ) (c : Comparison) (v w : Value) :
    compareSigned? c (v.rename ρ) (w.rename ρ) = compareSigned? c v w := by
  have h := comparePointers?_rename hρ c c.signed v w
  cases v <;> cases w <;> first | rfl | exact h

/-- Unsigned comparisons do not see a renaming. -/
theorem compareUnsigned?_rename (hρ : Function.Injective ρ) (c : Comparison) (v w : Value) :
    compareUnsigned? c (v.rename ρ) (w.rename ρ) = compareUnsigned? c v w := by
  have h := comparePointers?_rename hρ c c.unsigned v w
  cases v <;> cases w <;> first | rfl | exact h

/-- Comparisons of doubles do not see a renaming. -/
theorem compareFloat?_rename (c : Comparison) (v w : Value) :
    compareFloat? c (v.rename ρ) (w.rename ρ) = compareFloat? c v w := by
  cases v <;> cases w <;> rfl

end Value

/-- Unary operators have renamed results. -/
theorem UnaryOp.apply_rename (op : UnaryOp) (v : Value) :
    op.apply (v.rename ρ) = (op.apply v).map (Value.rename ρ) := by
  cases op with
  | intOfFloat =>
    refine Value.onDouble_rename (fun x => ?_) v
    rw [Option.map_map]
    rfl
  | negFloat => exact Value.onDouble_rename (fun _ => rfl) v
  | absFloat => exact Value.onDouble_rename (fun _ => rfl) v
  | singleOfFloat => exact Value.onDouble_rename (fun _ => rfl) v
  | cast8Signed => exact Value.onWord_rename (fun _ => rfl) v
  | cast8Unsigned => exact Value.onWord_rename (fun _ => rfl) v
  | cast16Signed => exact Value.onWord_rename (fun _ => rfl) v
  | cast16Unsigned => exact Value.onWord_rename (fun _ => rfl) v
  | neg => exact Value.onWord_rename (fun _ => rfl) v
  | not => exact Value.onWord_rename (fun _ => rfl) v
  | floatOfInt => exact Value.onWord_rename (fun _ => rfl) v
  | floatOfUnsigned => exact Value.onWord_rename (fun _ => rfl) v

/-- Binary operators have renamed results. -/
theorem BinaryOp.apply_rename (hρ : Function.Injective ρ) (op : BinaryOp) (v w : Value) :
    op.apply (v.rename ρ) (w.rename ρ) = (op.apply v w).map (Value.rename ρ) := by
  cases op with
  | add => exact Value.add_rename v w
  | sub => exact Value.sub_rename hρ v w
  | addFloat => exact Value.onDoubles_rename _ v w
  | subFloat => exact Value.onDoubles_rename _ v w
  | mulFloat => exact Value.onDoubles_rename _ v w
  | divFloat => exact Value.onDoubles_rename _ v w
  | mul => exact Value.onWords_rename _ v w
  | divSigned => exact Value.onWords_rename _ v w
  | divUnsigned => exact Value.onWords_rename _ v w
  | modSigned => exact Value.onWords_rename _ v w
  | modUnsigned => exact Value.onWords_rename _ v w
  | and => exact Value.onWords_rename _ v w
  | or => exact Value.onWords_rename _ v w
  | xor => exact Value.onWords_rename _ v w
  | shiftLeft => exact Value.onWords_rename _ v w
  | shiftRight => exact Value.onWords_rename _ v w
  | shiftRightUnsigned => exact Value.onWords_rename _ v w

/-- Operators with a constant have renamed results. -/
theorem ImmediateOp.apply_rename (hρ : Function.Injective ρ) (op : ImmediateOp) (n : Word)
    (v : Value) : op.apply n (v.rename ρ) = (op.apply n v).map (Value.rename ρ) := by
  -- Each is a binary operator one argument of which is the constant.
  cases op with
  | subFrom => exact BinaryOp.apply_rename hρ .sub (.int n) v
  | add => exact BinaryOp.apply_rename hρ .add v (.int n)
  | mul => exact BinaryOp.apply_rename hρ .mul v (.int n)
  | and => exact BinaryOp.apply_rename hρ .and v (.int n)
  | or => exact BinaryOp.apply_rename hρ .or v (.int n)
  | xor => exact BinaryOp.apply_rename hρ .xor v (.int n)
  | shiftLeft => exact BinaryOp.apply_rename hρ .shiftLeft v (.int n)
  | shiftRight => exact BinaryOp.apply_rename hρ .shiftRight v (.int n)
  | shiftRightUnsigned => exact BinaryOp.apply_rename hρ .shiftRightUnsigned v (.int n)

/-- Conditions do not see a renaming. -/
theorem Condition.eval?_rename (hρ : Function.Injective ρ) (cond : Condition) (args : List Value) :
    cond.eval? (args.map (Value.rename ρ)) = cond.eval? args := by
  match args with
  | [] => cases cond <;> rfl
  | [v] =>
    cases cond with
    | signedImm c n => exact Value.compareSigned?_rename hρ c v (.int n)
    | unsignedImm c n => exact Value.compareUnsigned?_rename hρ c v (.int n)
    | signed c => rfl
    | unsigned c => rfl
    | float c => rfl
    | notFloat c => rfl
  | [v, w] =>
    cases cond with
    | signed c => exact Value.compareSigned?_rename hρ c v w
    | unsigned c => exact Value.compareUnsigned?_rename hρ c v w
    | float c => exact Value.compareFloat?_rename c v w
    | notFloat c => exact congrArg (Option.map (!·)) (Value.compareFloat?_rename c v w)
    | signedImm c n => rfl
    | unsignedImm c n => rfl
  | _ :: _ :: _ :: _ => cases cond <;> rfl

/-! ## Environments -/

/-- The globals of one environment have the blocks that those of another one have, renamed. -/
structure Environment.Renames (ρ : BlockId → BlockId) (env env' : Environment) : Prop where
  /-- Different blocks stay different. -/
  injective : Function.Injective ρ
  /-- Symbols have renamed blocks. -/
  symbol? : ∀ name, env'.symbol? name = (env.symbol? name).map ρ
  /-- The renamed block of a function identifies that function. -/
  function? : ∀ b, env'.function? (ρ b) = env.function? b

namespace Environment.Renames

variable {env env' : Environment}

/-- Nothing is renamed in an environment itself. -/
theorem refl (env : Environment) : env.Renames id env where
  injective := fun _ _ h => h
  symbol? := fun _ => Option.map_id_apply.symm
  function? := fun _ => rfl

/-- The addresses of symbols are renamed. -/
theorem address? (h : env.Renames ρ env') (name : String) (offset : Word) :
    env'.address? name offset = (env.address? name offset).map (Value.rename ρ) := by
  simp only [Environment.address?, h.symbol?, Option.map_map]
  rfl

/-- A renamed function pointer points to the same function. -/
theorem functionAt? (h : env.Renames ρ env') (v : Value) :
    env'.functionAt? (v.rename ρ) = (env.functionAt? v).map ρ := by
  cases v with
  | ptr b o =>
    simp only [Value.rename_ptr, Environment.functionAt?, h.function?]
    split <;> rfl
  | int n => rfl
  | float x => rfl
  | undefined => rfl

end Environment.Renames

variable {env env' : Environment}

/-- Operations have renamed results. -/
theorem Operation.eval?_rename (h : env.Renames ρ env') (sp : Value) (op : Operation)
    (args : List Value) :
    op.eval? env' (sp.rename ρ) (args.map (Value.rename ρ)) =
      (op.eval? env sp args).map (Value.rename ρ) := by
  cases op with
  | compare cond =>
    -- The result is the integer form of a truth value, which no renaming touches.
    have heval : ∀ (e : Environment) (v : Value) (vs : List Value),
        (Operation.compare cond).eval? e v vs = (cond.eval? vs).map Value.ofBool := fun _ _ _ => rfl
    rw [heval, heval, Condition.eval?_rename h.injective, Option.map_map]
    rfl
  | move => match args with
    | [] => rfl
    | [v] => rfl
    | _ :: _ :: _ => rfl
  | intConst n => cases args <;> rfl
  | floatConst x => cases args <;> rfl
  | addrSymbol symbol offset =>
    cases args with
    | nil => exact h.address? symbol offset
    | cons v args => rfl
  | addrStack offset =>
    cases args with
    | nil => exact Value.add_rename sp (.int offset)
    | cons v args => rfl
  | unary op => match args with
    | [] => rfl
    | [v] => exact op.apply_rename v
    | _ :: _ :: _ => rfl
  | binary op => match args with
    | [] => rfl
    | [v] => rfl
    | [v, w] => exact op.apply_rename h.injective v w
    | _ :: _ :: _ :: _ => rfl
  | immediate op n => match args with
    | [] => rfl
    | [v] => exact op.apply_rename h.injective n v
    | _ :: _ :: _ => rfl

/-- Addressing modes form renamed addresses. -/
theorem Addressing.eval?_rename (h : env.Renames ρ env') (sp : Value) (mode : Addressing)
    (args : List Value) :
    mode.eval? env' (sp.rename ρ) (args.map (Value.rename ρ)) =
      (mode.eval? env sp args).map (Value.rename ρ) := by
  cases mode with
  | indexed offset => match args with
    | [] => rfl
    | [v] => exact Value.add_rename v (.int offset)
    | _ :: _ :: _ => rfl
  | indexedTwo => match args with
    | [] => rfl
    | [v] => rfl
    | [v, w] => exact Value.add_rename v w
    | _ :: _ :: _ :: _ => rfl
  | global symbol offset =>
    cases args with
    | nil => exact h.address? symbol offset
    | cons v args => rfl
  | based symbol offset => match args with
    | [] => rfl
    | [v] =>
      simp only [List.map_cons, List.map_nil, Addressing.eval?, h.address?]
      cases env.address? symbol offset with
      | none => rfl
      | some a => exact Value.add_rename a v
    | _ :: _ :: _ => rfl
  | stack offset =>
    cases args with
    | nil => exact Value.add_rename sp (.int offset)
    | cons v args => rfl

end RegisterMachine
