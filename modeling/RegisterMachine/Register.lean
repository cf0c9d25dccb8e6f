import RegisterMachine.Value

/-! # Registers and the register file

There are sixteen integer registers and sixteen float registers. A register file binds each of them
to a value.

* `Register`, `Register.dataType`, `Register.number` — the registers and their class.
* `RegisterFile.get`, `RegisterFile.set` — the value of a register, and a change of one.
-/

namespace RegisterMachine

/-- A machine register. -/
inductive Register where
  /-- An integer register. -/
  | int (n : Fin 16)
  /-- A float register. -/
  | float (n : Fin 16)
  deriving DecidableEq, Repr

namespace Register

/-- The class of a register: the type of the values for which it is meant. -/
def dataType : Register → DataType
  | .int _ => .int
  | .float _ => .float

/-- The number of a register within its class. -/
def number : Register → Fin 16
  | .int n => n
  | .float n => n

instance : Vocabulary Register where
  all := (List.finRange 16).map .int ++ (List.finRange 16).map .float
  name
    | .int n => "r" ++ toString n.val
    | .float n => "f" ++ toString n.val

/-- The spelling of a register. -/
abbrev name (r : Register) : String := Vocabulary.name r

/-- The register that a word names. Every register has one spelling, ASCII case aside. -/
def read (s : String) : Except NameError Register :=
  match Vocabulary.find? s with
  | some r => .ok r
  | none => .error (.register s)

/-- The position of a register in the file, integer registers first. -/
def index : Register → Fin 32
  | .int n => n.castLE (by decide)
  | .float n => n.natAdd 16

theorem index_injective {a b : Register} (h : a.index = b.index) : a = b := by
  cases a <;> cases b <;> simp only [index, Fin.ext_iff, Fin.val_castLE, Fin.val_natAdd] at h
  · exact congrArg _ (Fin.ext h)
  · omega
  · omega
  · exact congrArg _ (Fin.ext (by omega))

end Register

/-- The values of all registers. -/
structure RegisterFile where
  /-- The value at each register position. -/
  values : Vector Value 32
  deriving DecidableEq

namespace RegisterFile

/-- The file in which every register is undefined. -/
def empty : RegisterFile := ⟨Vector.replicate 32 .undefined⟩

/-- The value of a register. -/
def get (rs : RegisterFile) (r : Register) : Value := rs.values[r.index.val]

/-- The file with one register bound to another value. -/
def set (rs : RegisterFile) (r : Register) (v : Value) : RegisterFile :=
  ⟨rs.values.set r.index.val v⟩

/-- The values of a list of registers. -/
def getList (rs : RegisterFile) (regs : List Register) : List Value := regs.map rs.get

@[simp] theorem get_empty (r : Register) : empty.get r = .undefined := by
  simp [empty, get]

@[simp] theorem get_set_self (rs : RegisterFile) (r : Register) (v : Value) :
    (rs.set r v).get r = v := by
  simp [get, set]

@[simp] theorem get_set_of_ne (rs : RegisterFile) {r r' : Register} (v : Value) (h : r ≠ r') :
    (rs.set r v).get r' = rs.get r' := by
  have hi : r.index.val ≠ r'.index.val := fun e => h (Register.index_injective (Fin.ext e))
  simp [get, set, hi]

end RegisterFile

end RegisterMachine
