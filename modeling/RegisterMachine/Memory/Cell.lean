import RegisterMachine.Value

/-! # Memory cells

Memory holds one cell per byte. Numbers are stored as little-endian bytes. A pointer has no byte
representation: stored as a word it becomes four fragments, which read back as that pointer only
when all four are read together and in order.

* `Cell` — the contents of one byte of memory.
* `Chunk.encode` — the cells that an access writes for a value.
* `Chunk.decode` — the value that an access reads from cells.
-/

namespace RegisterMachine

/-- The contents of one byte of memory. -/
inductive Cell where
  /-- Nothing known: never written, or written with a value that the access does not fit. -/
  | undefined
  /-- A concrete byte. -/
  | byte (b : Byte)
  /-- One of the four parts of a pointer. -/
  | fragment (block : BlockId) (offset : Word) (index : Fin 4)
  deriving DecidableEq, Repr

namespace Cell

instance : Inhabited Cell := ⟨.undefined⟩

/-- The bytes of a list of cells, if all of them are concrete. -/
def bytes? : List Cell → Option (List Byte)
  | [] => some []
  | .byte b :: cells => (bytes? cells).map (b :: ·)
  | _ :: _ => none

/-- The four parts of a pointer, in order. -/
def fragments (block : BlockId) (offset : Word) : List Cell :=
  (List.finRange 4).map (.fragment block offset)

/-- The pointer whose four parts, in order, are the given cells. -/
def pointer? (cells : List Cell) : Option Value :=
  match cells with
  | .fragment block offset _ :: _ =>
    if cells = fragments block offset then some (.ptr block offset) else none
  | _ => none

@[simp] theorem length_fragments (block : BlockId) (offset : Word) :
    (fragments block offset).length = 4 := by
  simp [fragments]

@[simp] theorem bytes?_map_byte (bs : List Byte) : bytes? (bs.map .byte) = some bs := by
  induction bs with
  | nil => rfl
  | cons b bs ih => simp [bytes?, ih]

/-- Cells that have bytes are those bytes. -/
theorem eq_map_of_bytes? {cells : List Cell} {bs : List Byte} (h : bytes? cells = some bs) :
    cells = bs.map .byte := by
  induction cells generalizing bs with
  | nil => simp_all [bytes?]
  | cons c cells ih =>
    cases c with
    | byte b =>
      obtain ⟨bs', hbs', rfl⟩ := Option.map_eq_some_iff.1 h
      simp [ih hbs']
    | undefined => simp [bytes?] at h
    | fragment => simp [bytes?] at h

@[simp] theorem bytes?_fragments (block : BlockId) (offset : Word) :
    bytes? (fragments block offset) = none := rfl

@[simp] theorem pointer?_fragments (block : BlockId) (offset : Word) :
    pointer? (fragments block offset) = some (.ptr block offset) := by
  show (if _ then _ else _) = _
  exact if_pos rfl

/-- Cells that read as a pointer are its four parts. -/
theorem eq_fragments_of_pointer? {cells : List Cell} {v : Value} (h : pointer? cells = some v) :
    ∃ block offset, v = .ptr block offset ∧ cells = fragments block offset := by
  unfold pointer? at h
  split at h
  · split at h
    · exact ⟨_, _, (Option.some.inj h).symm, by assumption⟩
    · cases h
  · cases h

end Cell

namespace Chunk

/-- The low bytes of a number that fill an access, as cells. -/
def numberCells (c : Chunk) (n : Nat) : List Cell := (Bytes.ofNat c.size n).map .byte

/-- The value that the number formed by the bytes of an access stands for. -/
def ofNumber (c : Chunk) (n : Nat) : Value :=
  match c with
  | .int8Signed => .int ((BitVec.ofNat 8 n).signExtend 32)
  | .int8Unsigned => .int ((BitVec.ofNat 8 n).setWidth 32)
  | .int16Signed => .int ((BitVec.ofNat 16 n).signExtend 32)
  | .int16Unsigned => .int ((BitVec.ofNat 16 n).setWidth 32)
  | .int32 => .int (BitVec.ofNat 32 n)
  | .float32 => .float (.ofSingle (BitVec.ofNat 32 n))
  | .float64 => .float ⟨BitVec.ofNat 64 n⟩

/-- The cells that an access writes for a value. Integers are cut to the width of the access. A
value of a kind that the access does not hold is stored as nothing known. -/
def encode (c : Chunk) (v : Value) : List Cell :=
  match c, v with
  | .float64, .float x => c.numberCells x.bits.toNat
  | .float32, .float x => c.numberCells x.toSingle.toNat
  | .int32, .ptr block offset => Cell.fragments block offset
  | .float64, .int _ | .float32, .int _ => List.replicate c.size .undefined
  | _, .int n => c.numberCells n.toNat
  | _, _ => List.replicate c.size .undefined

/-- The value that an access reads from cells. -/
def decode (c : Chunk) (cells : List Cell) : Value :=
  match Cell.bytes? cells with
  | some bs => c.ofNumber (Bytes.toNat bs)
  | none => if c = .int32 then (Cell.pointer? cells).getD .undefined else .undefined

@[simp] theorem length_encode (c : Chunk) (v : Value) : (c.encode v).length = c.size := by
  cases c <;> cases v <;> simp [encode, numberCells, size]

end Chunk

end RegisterMachine
