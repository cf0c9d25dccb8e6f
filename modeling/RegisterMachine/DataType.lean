import RegisterMachine.Text.Vocabulary

/-! # Data types and memory chunks

Registers, slots and signature positions have one of two types. A memory access has a *chunk*, which
fixes how many bytes it touches, how its offset is aligned and how the bytes are read.

* `DataType` — integers (and pointers), and floats.
* `Chunk`, `Chunk.size`, `Chunk.align`, `Chunk.dataType` — the seven access widths.
* `DataType.slotChunk` — the chunk that keeps every value of a type.
* `NameError` — why a word is not a name of the language, and `NameError.message`.
-/

namespace RegisterMachine

/-- A word that names nothing in the vocabulary in which it was looked up. -/
inductive NameError where
  /-- Not a register. -/
  | register (word : String)
  /-- Not a data type. -/
  | dataType (word : String)
  /-- Not a memory chunk. -/
  | chunk (word : String)
  /-- Not a comparison. -/
  | comparison (word : String)
  deriving DecidableEq, Repr

/-- The text of a name error. -/
def NameError.message : NameError → String
  | .register w => "unknown register '" ++ w ++ "'"
  | .dataType w => "unknown type '" ++ w ++ "'"
  | .chunk w => "unknown memory chunk '" ++ w ++ "'"
  | .comparison w => "unknown comparison '" ++ w ++ "'"

/-- The type of a register, a slot or a signature position. -/
inductive DataType where
  /-- 32-bit integers and pointers. -/
  | int
  /-- Double-precision numbers. -/
  | float
  deriving DecidableEq, Repr

/-- How a memory access reads or writes its bytes. -/
inductive Chunk where
  /-- One byte, read with its sign. -/
  | int8Signed
  /-- One byte, read without sign. -/
  | int8Unsigned
  /-- Two bytes, read with their sign. -/
  | int16Signed
  /-- Two bytes, read without sign. -/
  | int16Unsigned
  /-- A word: an integer or a pointer. -/
  | int32
  /-- A single-precision number. -/
  | float32
  /-- A double-precision number. -/
  | float64
  deriving DecidableEq, Repr

namespace DataType

instance : Vocabulary DataType where
  all := [.int, .float]
  name
    | .int => "int"
    | .float => "float"

/-- The spelling of a type. -/
abbrev name (t : DataType) : String := Vocabulary.name t

/-- The type that a word names. -/
def read (s : String) : Except NameError DataType :=
  match Vocabulary.find? s with
  | some t => .ok t
  | none => .error (.dataType s)

/-- Size of a slot of the type, in words. -/
def words : DataType → Nat
  | .int => 1
  | .float => 2

/-- The chunk that a slot of the type is accessed with. -/
def slotChunk : DataType → Chunk
  | .int => .int32
  | .float => .float64

end DataType

namespace Chunk

instance : Vocabulary Chunk where
  all := [.int8Signed, .int8Unsigned, .int16Signed, .int16Unsigned, .int32, .float32, .float64]
  name
    | .int8Signed => "int8s"
    | .int8Unsigned => "int8u"
    | .int16Signed => "int16s"
    | .int16Unsigned => "int16u"
    | .int32 => "int32"
    | .float32 => "float32"
    | .float64 => "float64"

/-- The spelling of a chunk. -/
abbrev name (c : Chunk) : String := Vocabulary.name c

/-- The chunk that a word names. -/
def read (s : String) : Except NameError Chunk :=
  match Vocabulary.find? s with
  | some c => .ok c
  | none => .error (.chunk s)

/-- The chunk as it is shown in the text of a memory fault. -/
def label : Chunk → String
  | .int8Signed => "Int8Signed"
  | .int8Unsigned => "Int8Unsigned"
  | .int16Signed => "Int16Signed"
  | .int16Unsigned => "Int16Unsigned"
  | .int32 => "Int32"
  | .float32 => "Float32"
  | .float64 => "Float64"

/-- Number of bytes that an access touches. -/
def size : Chunk → Nat
  | .int8Signed | .int8Unsigned => 1
  | .int16Signed | .int16Unsigned => 2
  | .int32 | .float32 => 4
  | .float64 => 8

/-- The number that divides the offset of every access. Doubles are aligned as words. -/
def align : Chunk → Nat
  | .int8Signed | .int8Unsigned => 1
  | .int16Signed | .int16Unsigned => 2
  | .int32 | .float32 | .float64 => 4

/-- The type of the values that an access reads. -/
def dataType : Chunk → DataType
  | .float32 | .float64 => .float
  | _ => .int

theorem size_pos (c : Chunk) : 0 < c.size := by
  cases c <;> decide

/-- A slot of a type has as many bytes as its words. -/
@[simp] theorem size_slotChunk (t : DataType) : t.slotChunk.size = 4 * t.words := by
  cases t <;> rfl

@[simp] theorem align_slotChunk (t : DataType) : t.slotChunk.align = 4 := by
  cases t <;> rfl

@[simp] theorem dataType_slotChunk (t : DataType) : t.slotChunk.dataType = t := by
  cases t <;> rfl

end Chunk

end RegisterMachine
