import RegisterMachine.Memory

/-! # Stack slots

A slot is addressed by a stack pointer and an offset in words. An integer slot fills one word and a
float slot two. Whether a slot exists is left to memory: its access is checked like any other.

* `slotAddress` — the address of a slot.
* `Memory.loadSlot`, `Memory.storeSlot` — the access to a slot of a type.
-/

namespace RegisterMachine

/-- The address of the slot at a word offset from a stack pointer. -/
def slotAddress (sp : Value) (offset : Word) : Except MemoryError Value :=
  match sp.add (.int (offset * 4#32)) with
  | some (.ptr b o) => .ok (.ptr b o)
  | _ => .error (.notAPointer sp)

@[simp] theorem slotAddress_ptr (b : BlockId) (o offset : Word) :
    slotAddress (.ptr b o) offset = .ok (.ptr b (o + offset * 4#32)) := rfl

/-- Only pointers have slots. -/
theorem slotAddress_eq_ok_iff {sp : Value} {offset : Word} {a : Value} :
    slotAddress sp offset = .ok a ↔ ∃ b o, sp = .ptr b o ∧ a = .ptr b (o + offset * 4#32) := by
  cases sp with
  | ptr b o =>
    constructor
    · intro h
      cases h
      exact ⟨b, o, rfl, rfl⟩
    · rintro ⟨_, _, h, rfl⟩
      cases h
      rfl
  | int n => simp [slotAddress, Value.add]
  | float x => simp [slotAddress, Value.add]
  | undefined => simp [slotAddress, Value.add]

namespace Memory

/-- The value in a slot. -/
def loadSlot (m : Memory) (sp : Value) (t : DataType) (offset : Word) :
    Except MemoryError Value := do
  let a ← slotAddress sp offset
  m.loadAt t.slotChunk a

/-- The memory after a value is put into a slot. -/
def storeSlot (m : Memory) (sp : Value) (t : DataType) (offset : Word) (v : Value) :
    Except MemoryError Memory := do
  let a ← slotAddress sp offset
  m.storeAt t.slotChunk a v

end Memory

end RegisterMachine
