import RegisterMachine.Proofs.Double.Single
import RegisterMachine.Proofs.Evaluation.ResultTypes
import RegisterMachine.Proofs.Memory.Bytes

/-! # Encoding and decoding

A value that is written and read back with one chunk is converted in the same way as by an operator:
narrow chunks cut an integer and extend it again, and single precision rounds a double. Values of
other kinds are lost. The other way round, cells that are read as a value are the only ones with
this value, so writing it puts the same cells there. Only not-a-number of single precision may
change, since reading makes it quiet.

* `Chunk.conversion?`, `Chunk.readBack` — what becomes of a value that is written and read.
* `Chunk.decode_encode` — decoding what has been encoded.
* `Chunk.encode_ofNumber`, `Chunk.encode_decode` — encoding what has been decoded.
* `Chunk.encode_eq_of_size_eq` — signs do not matter to an encoding.
* `Chunk.encoding_inverse` — all of this for a chunk.
-/

namespace RegisterMachine

namespace Chunk

variable {c c' : Chunk} {v : Value} {cells : List Cell} {n n' : Nat}

/-! ## Decoding what has been encoded -/

/-- The operator that converts a value as writing and reading it with a chunk does. Words and
doubles are not converted. -/
def conversion? : Chunk → Option UnaryOp
  | .int8Signed => some .cast8Signed
  | .int8Unsigned => some .cast8Unsigned
  | .int16Signed => some .cast16Signed
  | .int16Unsigned => some .cast16Unsigned
  | .int32 => none
  | .float32 => some .singleOfFloat
  | .float64 => none

/-- What is read back of a value that has been written with a chunk: its conversion, or the value
itself, or nothing known where it is not of the kind that the chunk holds. -/
def readBack (c : Chunk) (v : Value) : Value :=
  match c.conversion? with
  | some op => (op.apply v).getD .undefined
  | none => if v.HasType c.dataType then v else .undefined

/-- Cells of which nothing is known are read as the undefined value. -/
@[simp] theorem decode_replicate_undefined (c : Chunk) :
    c.decode (List.replicate c.size .undefined) = .undefined := by
  cases c <;> rfl

/-- Every chunk of integers writes the low bytes of an integer. -/
theorem encode_int (h : c.dataType = .int) (w : Word) :
    c.encode (.int w) = c.numberCells w.toNat := by
  cases c <;> first | rfl | cases h

/-- Only a chunk of words writes pointers. -/
theorem encode_ptr_of_ne (h : c ≠ .int32) (b : BlockId) (o : Word) :
    c.encode (.ptr b o) = List.replicate c.size .undefined := by
  cases c <;> first | rfl | exact absurd rfl h

/-- No chunk of integers writes doubles. -/
theorem encode_float (h : c.dataType = .int) (x : Double) :
    c.encode (.float x) = List.replicate c.size .undefined := by
  cases c <;> first | rfl | cases h

/-- No chunk writes the undefined value. -/
theorem encode_undefined (c : Chunk) : c.encode .undefined = List.replicate c.size .undefined := by
  cases c <;> rfl

/-- Chunks of integers with the same size write the same cells, whatever sign they read. -/
theorem encode_eq_of_size_eq (h : c.dataType = .int) (h' : c'.dataType = .int)
    (hsize : c'.size = c.size) (v : Value) : c'.encode v = c.encode v := by
  cases v with
  | int w => rw [encode_int h, encode_int h', numberCells, numberCells, hsize]
  | ptr b o =>
    -- There is only one chunk of words.
    by_cases hc : c = .int32
    · subst hc
      cases c' <;> first | rfl | exact absurd hsize (by decide) | cases h'
    · have hc' : c' ≠ .int32 := by
        rintro rfl
        cases c <;> first | exact hc rfl | exact absurd hsize (by decide) | cases h
      rw [encode_ptr_of_ne hc, encode_ptr_of_ne hc', hsize]
  | float x => rw [encode_float h, encode_float h', hsize]
  | undefined => rw [encode_undefined, encode_undefined, hsize]

/-- A value that has been written is read back as its conversion. -/
theorem decode_encode (c : Chunk) (v : Value) : c.decode (c.encode v) = c.readBack v := by
  cases v with
  | undefined => cases c <;> rfl
  | ptr b o =>
    by_cases hc : c = .int32
    · subst hc
      exact decode_encode_int32 rfl
    · rw [encode_ptr_of_ne hc, decode_replicate_undefined]
      cases c <;> first | rfl | exact absurd rfl hc
  | int w =>
    cases c with
    | float32 => rfl
    | float64 => rfl
    | int32 => exact decode_encode_int32 rfl
    | _ =>
      rw [encode_int rfl, decode_numberCells, ofNumber, BitVec.ofNat_toNat]
      rfl
  | float x =>
    cases c with
    | float32 =>
      have hencode : float32.encode (.float x) = float32.numberCells x.toSingle.toNat := rfl
      rw [hencode, decode_numberCells, ofNumber, BitVec.ofNat_toNat, BitVec.setWidth_eq]
      rfl
    | float64 => exact decode_encode_slotChunk (t := .float) rfl
    | _ => rfl

/-! ## Encoding what has been decoded -/

/-- The low bits of a word that has been extended are those that were there before. -/
theorem toNat_signExtend_mod {k : Nat} (h : k ≤ 32) (x : BitVec k) :
    (x.signExtend 32).toNat % 2 ^ k = x.toNat := by
  have hcut : (x.signExtend 32).setWidth k = x := by
    ext i hi
    simp [BitVec.getLsbD_signExtend, hi]
    omega
  rw [← BitVec.toNat_setWidth, hcut]

/-- Only the low bytes of a number are written. -/
theorem numberCells_congr (h : n % 2 ^ (8 * c.size) = n' % 2 ^ (8 * c.size)) :
    c.numberCells n = c.numberCells n' := by
  rw [numberCells, numberCells, Bytes.ofNat_congr h]

/-- A chunk of integers reads a number as a word with the same low bytes. -/
theorem exists_word_ofNumber (h : c.dataType = .int) (n : Nat) :
    ∃ w : Word, c.ofNumber n = .int w ∧ w.toNat % 2 ^ (8 * c.size) = n % 2 ^ (8 * c.size) := by
  cases c with
  | int8Signed =>
    refine ⟨_, rfl, ?_⟩
    exact (toNat_signExtend_mod (by decide) (BitVec.ofNat 8 n)).trans (BitVec.toNat_ofNat n 8)
  | int8Unsigned =>
    refine ⟨_, rfl, ?_⟩
    rw [size, BitVec.toNat_setWidth, BitVec.toNat_ofNat]
    omega
  | int16Signed =>
    refine ⟨_, rfl, ?_⟩
    exact (toNat_signExtend_mod (by decide) (BitVec.ofNat 16 n)).trans (BitVec.toNat_ofNat n 16)
  | int16Unsigned =>
    refine ⟨_, rfl, ?_⟩
    rw [size, BitVec.toNat_setWidth, BitVec.toNat_ofNat]
    omega
  | int32 => exact ⟨_, rfl, by rw [size, BitVec.toNat_ofNat, Nat.mod_mod]⟩
  | float32 => cases h
  | float64 => cases h

/-- A number that has been read as a value is written again, unless it is not-a-number of single
precision. -/
theorem encode_ofNumber
    (hnumber : c = .float32 → (Double.ofSingle (BitVec.ofNat 32 n)).isNaN = false) :
    c.encode (c.ofNumber n) = c.numberCells n := by
  cases htype : c.dataType with
  | int =>
    obtain ⟨w, hw, hlow⟩ := exists_word_ofNumber htype n
    rw [hw, encode_int htype, numberCells_congr hlow]
  | float =>
    cases c with
    | float32 =>
      have hencode : float32.encode (float32.ofNumber n) =
          float32.numberCells (Double.ofSingle (BitVec.ofNat 32 n)).toSingle.toNat := rfl
      rw [hencode, Double.toSingle_ofSingle (hnumber rfl), BitVec.toNat_ofNat]
      exact numberCells_congr (Nat.mod_mod n _)
    | float64 =>
      have hencode : float64.encode (float64.ofNumber n) =
          float64.numberCells (BitVec.ofNat 64 n).toNat := rfl
      rw [hencode, BitVec.toNat_ofNat]
      exact numberCells_congr (Nat.mod_mod n _)
    | _ => cases htype

/-- Cells that are not all bytes are read as a pointer, or nothing is known of them. -/
theorem exists_ptr_of_decode (hbytes : Cell.bytes? cells = none)
    (hknown : c.decode cells ≠ .undefined) : ∃ b o, c.decode cells = .ptr b o := by
  have hdecode : c.decode cells =
      if c = .int32 then (Cell.pointer? cells).getD .undefined else .undefined := by
    rw [decode, hbytes]
  rw [hdecode] at hknown ⊢
  split at hknown
  · rename_i hc
    rw [if_pos hc]
    cases hp : Cell.pointer? cells with
    | none =>
      rw [hp] at hknown
      exact absurd rfl hknown
    | some v =>
      obtain ⟨b, o, rfl, -⟩ := Cell.eq_fragments_of_pointer? hp
      exact ⟨b, o, rfl⟩
  · exact absurd rfl hknown

/-- Cells that are read as a value are written again for this value, unless it is not-a-number of
single precision. -/
theorem encode_decode (hlength : cells.length = c.size) (hknown : c.decode cells ≠ .undefined)
    (hnumber : c = .float32 → ∀ x, c.decode cells = .float x → x.isNaN = false) :
    c.encode (c.decode cells) = cells := by
  cases hbytes : Cell.bytes? cells with
  | some bs =>
    -- Cells that are all bytes are those of the number that the bytes form.
    have hcells := Cell.eq_map_of_bytes? hbytes
    have hdecode : c.decode cells = c.ofNumber (Bytes.toNat bs) := by rw [decode, hbytes]
    have hcount : bs.length = c.size := by rw [← hlength, hcells, List.length_map]
    rw [hdecode] at hnumber ⊢
    rw [encode_ofNumber, numberCells, ← hcount, Bytes.ofNat_toNat, ← hcells]
    rintro rfl
    exact hnumber rfl _ rfl
  | none =>
    obtain ⟨b, o, hdecode⟩ := exists_ptr_of_decode hbytes hknown
    obtain ⟨rfl, hcells⟩ := decode_eq_ptr_iff.1 hdecode
    rw [hdecode, hcells]
    rfl

/-- Encoding and decoding are inverse to each other as far as a chunk holds a value. For each chunk

* there are as many cells in an encoding as the chunk has bytes;
* a value that is encoded and decoded is cut and extended by the operator of a narrow chunk, rounded
  by that of single precision, and kept if it is one of a word or a double; if it is of another kind
  it becomes undefined;
* chunks of integers with the same size encode every value in the same way;
* cells that are decoded to anything but the undefined value are its encoding, unless they are
  decoded to not-a-number of single precision;
* cells are decoded to a value of the type of the chunk. -/
theorem encoding_inverse (c : Chunk) :
    (∀ v, (c.encode v).length = c.size) ∧
    (∀ v, c.decode (c.encode v) = c.readBack v) ∧
    (∀ c' : Chunk, c.dataType = .int → c'.dataType = .int → c'.size = c.size →
      ∀ v, c'.encode v = c.encode v) ∧
    (∀ cells, cells.length = c.size → c.decode cells ≠ .undefined →
      (c = .float32 → ∀ x, c.decode cells = .float x → x.isNaN = false) →
        c.encode (c.decode cells) = cells) ∧
    ∀ cells, (c.decode cells).HasType c.dataType :=
  ⟨c.length_encode, c.decode_encode, fun _ => encode_eq_of_size_eq, fun _ => encode_decode,
    c.hasType_decode⟩

end Chunk

end RegisterMachine
