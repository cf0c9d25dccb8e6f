import RegisterMachine.Proofs.Memory.Bounds
import Mathlib.Algebra.GroupWithZero.Nat

/-! # Memory byte by byte

A byte of memory is an offset within the bounds of a live block, and it holds a cell. What the
operations do to memory is said here for one byte at a time, and what a load reads depends on the
cells of its bytes alone.

* `Region.Admits.index_add_size_le` — the cells of an access that is admitted exist.
* `Memory.cell?_eq_some_iff` — the bytes of memory.
* `Memory.cell?_alloc`, `Memory.cell?_of_free`, `Memory.cell?_of_store` — what the operations do to
  each of them.
* `Memory.Writes` — writing cells one after the other.
* `Memory.load_eq_ok_iff_cells` — a load decodes the cells of its bytes.
* `Chunk.decode_eq_ptr_iff`, `Chunk.getElem?_encode_eq_fragment_iff` — pointers are read from their
  parts, and parts are written by stores of pointers.
* `Chunk.decode_numberCells`, `Chunk.decode_encode_slotChunk` — numbers, and values that fit in a
  slot, read back where they are written.
-/

namespace RegisterMachine

/-! ## Cells of a region -/

namespace Region

variable {r : Region} {c : Chunk} {offset x : Int} {v : Value}

/-- The cells of an access that a region admits exist: its first index does not lie before the first
cell, nor its last one behind the last cell. -/
theorem Admits.index_add_size_le (h : r.Admits c offset) :
    ((offset - r.lo).toNat : Int) = offset - r.lo ∧
      (offset - r.lo).toNat + c.size ≤ r.cells.size := by
  obtain ⟨⟨hlo, hhi⟩, -⟩ := h
  have hsize := r.size_cells
  omega

/-- Within the bounds the cell at an offset is the one at the distance from the lower bound. -/
theorem getElem?_cells (hlo : r.lo ≤ x) (hhi : x < r.hi) :
    r.cells[(x - r.lo).toNat]? = some (r.cellAt x) := by
  have hsize := r.size_cells
  have hlt : (x - r.lo).toNat < r.cells.size := by omega
  rw [cellAt, if_pos hlo, Array.getD_eq_getD_getElem?, Array.getElem?_eq_getElem hlt,
    Option.getD_some]

/-- A write puts the encoded value where the access is, and keeps all other cells. -/
theorem some_cellAt_write (h : r.Admits c offset) (hlo : r.lo ≤ x) (hhi : x < r.hi) :
    some ((r.write c offset v).cellAt x) =
      if offset ≤ x ∧ x < offset + c.size then (c.encode v)[(x - offset).toNat]?
      else some (r.cellAt x) := by
  obtain ⟨hindex, hsize⟩ := h.index_add_size_le
  have hcells := r.size_cells
  rw [← getElem?_cells hlo hhi, ← getElem?_cells (r := r.write c offset v) hlo hhi]
  simp only [write, getElem?_overwrite, Chunk.length_encode]
  by_cases hin : offset ≤ x ∧ x < offset + c.size
  · have hpos : (offset - r.lo).toNat ≤ (x - r.lo).toNat ∧
        (x - r.lo).toNat < (offset - r.lo).toNat + c.size ∧ (x - r.lo).toNat < r.cells.size := by
      omega
    rw [if_pos hpos, if_pos hin]
    congr 1
    omega
  · have hneg : ¬ ((offset - r.lo).toNat ≤ (x - r.lo).toNat ∧
        (x - r.lo).toNat < (offset - r.lo).toNat + c.size ∧ (x - r.lo).toNat < r.cells.size) := by
      omega
    rw [if_neg hneg, if_neg hin]

end Region

/-! ## Bytes of memory -/

namespace Memory

variable {m m' : Memory} {b b' : BlockId} {c : Chunk} {offset lo hi x : Int} {v : Value}
  {cell : Cell}

/-- The bytes of memory are the offsets within the bounds of live blocks. -/
theorem cell?_eq_some_iff :
    m.cell? b x = some cell ↔
      ∃ r, m.region? b = some r ∧ r.lo ≤ x ∧ x < r.hi ∧ r.cellAt x = cell := by
  unfold cell?
  cases m.region? b with
  | none => simp
  | some r =>
    by_cases h : r.lo ≤ x ∧ x < r.hi
    · simp [h]
    · simp only [Option.bind_some, if_neg h, reduceCtorEq, Option.some.injEq, exists_eq_left',
        false_iff]
      exact fun hcell => h ⟨hcell.1, hcell.2.1⟩

/-- A byte that an access touches holds a cell. -/
theorem isSome_cell?_iff :
    (m.cell? b x).isSome = true ↔ ∃ lo hi, m.bounds? b = some (lo, hi) ∧ lo ≤ x ∧ x < hi := by
  rw [Option.isSome_iff_exists]
  simp only [cell?_eq_some_iff, bounds?_eq_some_iff]
  constructor
  · rintro ⟨_, r, hr, hlo, hhi, -⟩
    exact ⟨_, _, ⟨r, hr, rfl, rfl⟩, hlo, hhi⟩
  · rintro ⟨_, _, ⟨r, hr, rfl, rfl⟩, hlo, hhi⟩
    exact ⟨_, r, hr, hlo, hhi, rfl⟩

/-- Nothing is known of the bytes of a new block, and all others stay as they are. -/
theorem cell?_alloc :
    (m.alloc lo hi).2.cell? b x =
      if b = m.nextBlock then if lo ≤ x ∧ x < max lo hi then some .undefined else none
      else m.cell? b x := by
  unfold cell?
  rw [region?_alloc]
  by_cases h : b = m.nextBlock
  · rw [if_pos h, if_pos h, Option.bind_some, Region.cellAt_fresh]
    rfl
  · rw [if_neg h, if_neg h]

/-- Freeing a block takes its bytes away and leaves all others. -/
theorem cell?_of_free (h : m.free b lo hi = .ok m') :
    m'.cell? b' x = if b' = b then none else m.cell? b' x := by
  obtain ⟨-, rfl⟩ := free_eq_ok_iff.1 h
  unfold cell?
  rw [region?_update]
  by_cases hb : b' = b
  · rw [if_pos hb, if_pos hb]
    cases m.region? b <;> rfl
  · rw [if_neg hb, if_neg hb]

/-- A store puts the encoded value where its access is and leaves all other bytes. -/
theorem cell?_of_store (h : m.store c b offset v = .ok m') :
    m'.cell? b' x =
      if b' = b ∧ offset ≤ x ∧ x < offset + c.size then (c.encode v)[(x - offset).toNat]?
      else m.cell? b' x := by
  obtain ⟨r, hr, hadmits, rfl⟩ := store_eq_ok_iff.1 h
  unfold cell?
  rw [region?_update, hr]
  by_cases hb : b' = b
  · subst hb
    rw [if_pos rfl, hr, Option.bind_some, Option.bind_some, Option.bind_some]
    have hcontains := hadmits.1
    simp only [Region.Contains] at hcontains
    by_cases hx : r.lo ≤ x ∧ x < r.hi
    · rw [if_pos (show (r.write c offset v).lo ≤ x ∧ x < (r.write c offset v).hi from hx),
        Region.some_cellAt_write hadmits hx.1 hx.2, if_pos hx]
      simp only [true_and]
    · -- The access lies within the bounds, so it does not touch this offset.
      rw [if_neg (show ¬ ((r.write c offset v).lo ≤ x ∧ x < (r.write c offset v).hi) from hx),
        if_neg hx, if_neg (by omega)]
  · rw [if_neg hb, if_neg (fun hin => hb hin.1)]

/-! ## Writing several cells -/

/-- One memory comes of another by writing cells one after the other from an offset on. -/
def Writes (m m' : Memory) (b : BlockId) (offset : Int) (cells : List Cell) : Prop :=
  ∀ b' x, m'.cell? b' x =
    if b' = b ∧ offset ≤ x ∧ x < offset + cells.length then cells[(x - offset).toNat]?
    else m.cell? b' x

namespace Writes

/-- Where nothing is written memory stays as it is. -/
theorem nil (m : Memory) (b : BlockId) (offset : Int) : m.Writes m b offset [] := by
  intro b' x
  rw [if_neg]
  simp only [List.length_nil]
  omega

/-- A store writes the encoded value. -/
theorem of_store (h : m.store c b offset v = .ok m') : m.Writes m' b offset (c.encode v) := by
  intro b' x
  rw [cell?_of_store h, Chunk.length_encode]

/-- What is written behind other cells is written together with them. -/
theorem append {m₁ : Memory} {cells cells' : List Cell} (h : m.Writes m₁ b offset cells)
    (h' : m₁.Writes m' b (offset + cells.length) cells') :
    m.Writes m' b offset (cells ++ cells') := by
  intro b' x
  rw [h' b' x, h b' x, List.length_append, List.getElem?_append]
  by_cases hb : b' = b
  · simp only [hb, true_and]
    by_cases hx : x < offset + cells.length
    · -- The offset lies before the cells that are written later.
      rw [if_neg (by omega)]
      by_cases hlo : offset ≤ x
      · rw [if_pos ⟨hlo, hx⟩, if_pos (by omega), if_pos (by omega)]
      · rw [if_neg (by omega), if_neg (by omega)]
    · by_cases hx' : x < offset + cells.length + cells'.length
      · rw [if_pos (by omega), if_pos (by omega), if_neg (by omega)]
        congr 1
        omega
      · rw [if_neg (by omega), if_neg (by omega), if_neg (by omega)]
  · simp only [hb, false_and, if_false]

end Writes

/-! ## Loads -/

/-- The cells that an access reads are those of its bytes. -/
theorem getElem?_cellsFrom {r : Region} (hr : m.region? b = some r) (hadmits : r.Admits c offset)
    {i : Nat} (hi : i < c.size) :
    (r.cellsFrom offset c.size)[i]? = m.cell? b (offset + i) := by
  have hcontains := hadmits.1
  simp only [Region.Contains] at hcontains
  have hcell : m.cell? b (offset + i) = some (r.cellAt (offset + i)) :=
    cell?_eq_some_iff.2 ⟨r, hr, by omega, by omega, rfl⟩
  rw [hcell]
  simp [Region.cellsFrom, hi]

/-- A load succeeds where all bytes of an aligned access exist, and decodes their cells. -/
theorem load_eq_ok_iff_cells :
    m.load c b offset = .ok v ↔
      offset % c.align = 0 ∧ ∃ cells : List Cell, cells.length = c.size ∧
        (∀ i : Nat, i < c.size → m.cell? b (offset + i) = cells[i]?) ∧ c.decode cells = v := by
  rw [load_eq_ok_iff]
  constructor
  · rintro ⟨r, hr, hadmits, hread⟩
    refine ⟨hadmits.2, r.cellsFrom offset c.size, r.length_cellsFrom _ _, fun i hi => ?_, hread⟩
    exact (getElem?_cellsFrom hr hadmits hi).symm
  · rintro ⟨halign, cells, hlength, hcells, hdecode⟩
    -- The first and the last byte of the access show that it lies within the bounds.
    have hmem : ∀ i : Nat, i < c.size →
        ∃ r, m.region? b = some r ∧ r.lo ≤ offset + i ∧ offset + i < r.hi := by
      intro i hi
      have hcell := hcells i hi
      rw [List.getElem?_eq_getElem (by omega)] at hcell
      obtain ⟨r, hr, hlo, hhi, -⟩ := cell?_eq_some_iff.1 hcell
      exact ⟨r, hr, hlo, hhi⟩
    have hpos := c.size_pos
    obtain ⟨r, hr, hfirst, -⟩ := hmem 0 hpos
    obtain ⟨r', hr', -, hlast⟩ := hmem (c.size - 1) (by omega)
    obtain rfl : r = r' := Option.some.inj (hr.symm.trans hr')
    have hadmits : r.Admits c offset := ⟨⟨by omega, by omega⟩, halign⟩
    refine ⟨r, hr, hadmits, ?_⟩
    have hread : r.cellsFrom offset c.size = cells := by
      apply List.ext_getElem?
      intro i
      by_cases hi : i < c.size
      · rw [getElem?_cellsFrom hr hadmits hi, hcells i hi]
      · rw [List.getElem?_eq_none (by simp; omega), List.getElem?_eq_none (by omega)]
    rw [Region.read, hread, hdecode]

/-- A load reads the same value while its bytes keep their cells. -/
theorem load_congr
    (h : ∀ i : Nat, i < c.size → m'.cell? b (offset + i) = m.cell? b (offset + i)) :
    m'.load c b offset = .ok v ↔ m.load c b offset = .ok v := by
  rw [load_eq_ok_iff_cells, load_eq_ok_iff_cells]
  refine and_congr_right fun _ => exists_congr fun cells => and_congr_right fun _ =>
    and_congr_left fun _ => forall_congr' fun i => forall_congr' fun hi => ?_
  rw [h i hi]

/-- A value that has been stored is read as what its encoding decodes to. -/
theorem load_of_store (h : m.store c b offset v = .ok m') :
    m'.load c b offset = .ok (c.decode (c.encode v)) := by
  obtain ⟨r, -, hadmits, -⟩ := store_eq_ok_iff.1 h
  refine load_eq_ok_iff_cells.2 ⟨hadmits.2, _, c.length_encode v, fun i hi => ?_, rfl⟩
  rw [cell?_of_store h, if_pos ⟨rfl, by omega, by omega⟩]
  congr 1
  omega

end Memory

/-! ## Parts of a pointer -/

section Parts

variable {c : Chunk} {cells : List Cell} {v : Value} {p : BlockId} {w : Word}

/-- The cells of a pointer in memory, one by one. -/
theorem Cell.getElem?_fragments (p : BlockId) (w : Word) (i : Fin 4) :
    (Cell.fragments p w)[i.val]? = some (.fragment p w i) := by
  simp [fragments]

/-- No access reads a number as a pointer. -/
theorem Chunk.ofNumber_ne_ptr (n : Nat) : c.ofNumber n ≠ .ptr p w := by
  cases c <;> exact Value.noConfusion

/-- A pointer is read by an access of a word that finds its parts in order. -/
theorem Chunk.decode_eq_ptr_iff :
    c.decode cells = .ptr p w ↔ c = .int32 ∧ cells = Cell.fragments p w := by
  constructor
  · intro h
    unfold decode at h
    split at h
    · exact absurd h (c.ofNumber_ne_ptr _)
    · split at h
      · rename_i hc
        cases hp : Cell.pointer? cells with
        | none =>
          rw [hp] at h
          cases h
        | some v =>
          obtain ⟨p', w', rfl, hcells⟩ := Cell.eq_fragments_of_pointer? hp
          rw [hp] at h
          cases h
          exact ⟨hc, hcells⟩
      · cases h
  · rintro ⟨rfl, rfl⟩
    rw [decode, Cell.bytes?_fragments, Cell.pointer?_fragments]
    rfl

/-- Numbers are stored as bytes. -/
theorem Chunk.fragment_not_mem_numberCells {i : Fin 4} (n : Nat) :
    Cell.fragment p w i ∉ c.numberCells n := by
  simp [numberCells]

/-- A part of a pointer is written by a store of the pointer as a word, at its own place. -/
theorem Chunk.getElem?_encode_eq_fragment_iff {k : Nat} {i : Fin 4} :
    (c.encode v)[k]? = some (.fragment p w i) ↔ c = .int32 ∧ v = .ptr p w ∧ k = i := by
  constructor
  · intro h
    have hmem := List.mem_of_getElem? h
    cases v with
    | ptr p' w' =>
      cases c with
      | int32 =>
        have hk : k < 4 := by simpa [encode] using (List.getElem?_eq_some_iff.1 h).1
        have hcell := Cell.getElem?_fragments p' w' ⟨k, hk⟩
        rw [encode, hcell] at h
        cases h
        exact ⟨rfl, rfl, rfl⟩
      | _ => simp [encode] at hmem
    | int n => cases c <;> simp [encode, fragment_not_mem_numberCells] at hmem
    | float x => cases c <;> simp [encode, fragment_not_mem_numberCells] at hmem
    | undefined => cases c <;> simp [encode] at hmem
  · rintro ⟨rfl, rfl, rfl⟩
    exact Cell.getElem?_fragments p w i

end Parts

/-! ## Numbers -/

/-- The low bytes of a number form what the number leaves over at their width. -/
theorem Bytes.toNat_ofNat (count n : Nat) : toNat (ofNat count n) = n % 2 ^ (8 * count) := by
  induction count generalizing n with
  | zero => rw [ofNat, toNat, Nat.mul_zero, Nat.pow_zero, Nat.mod_one]
  | succ count ih =>
    have hpow : 2 ^ (8 * (count + 1)) = 256 * 2 ^ (8 * count) := by
      rw [Nat.mul_succ, Nat.pow_add, Nat.mul_comm]
    rw [ofNat, toNat, ih, BitVec.toNat_ofNat, hpow, Nat.mod_mul]

/-- The low bytes of a number form the number, cut to their width. -/
theorem Bytes.ofNat_toNat_ofNat (count n : Nat) :
    BitVec.ofNat (8 * count) (toNat (ofNat count n)) = BitVec.ofNat (8 * count) n := by
  apply BitVec.eq_of_toNat_eq
  rw [BitVec.toNat_ofNat, BitVec.toNat_ofNat, toNat_ofNat, Nat.mod_mod]

/-- The low bytes of a number depend on nothing but what it leaves over at their width. -/
theorem Bytes.ofNat_congr {count a b : Nat} (h : a % 2 ^ (8 * count) = b % 2 ^ (8 * count)) :
    ofNat count a = ofNat count b := by
  have hread : ∀ n, ofNat count (n % 2 ^ (8 * count)) = ofNat count n := by
    intro n
    have hbytes := ofNat_toNat (ofNat count n)
    rwa [length_ofNat, toNat_ofNat] at hbytes
  rw [← hread a, h, hread b]

/-- A number that is written as bytes is read as what it stands for. -/
theorem Chunk.decode_numberCells (c : Chunk) (n : Nat) :
    c.decode (c.numberCells n) = c.ofNumber n := by
  have hbits := Bytes.ofNat_toNat_ofNat c.size n
  rw [numberCells, decode, Cell.bytes?_map_byte]
  cases c with
  | int8Signed => exact congrArg (fun w : Byte => Value.int (w.signExtend 32)) hbits
  | int8Unsigned => exact congrArg (fun w : Byte => Value.int (w.setWidth 32)) hbits
  | int16Signed => exact congrArg (fun w : BitVec 16 => Value.int (w.signExtend 32)) hbits
  | int16Unsigned => exact congrArg (fun w : BitVec 16 => Value.int (w.setWidth 32)) hbits
  | int32 => exact congrArg Value.int hbits
  | float32 => exact congrArg (fun w : Word => Value.float (.ofSingle w)) hbits
  | float64 => exact congrArg (fun w : BitVec 64 => Value.float ⟨w⟩) hbits

/-- Values that fit in a word are read back from a word. -/
theorem Chunk.decode_encode_int32 {v : Value} (h : v.HasType .int) :
    Chunk.int32.decode (Chunk.int32.encode v) = v := by
  cases v with
  | int n =>
    have hencode : Chunk.int32.encode (.int n) = Chunk.int32.numberCells n.toNat := rfl
    rw [hencode, decode_numberCells, ofNumber, BitVec.ofNat_toNat, BitVec.setWidth_eq]
  | ptr b o => exact decode_eq_ptr_iff.2 ⟨rfl, rfl⟩
  | undefined => rfl
  | float x => cases h

/-- Values that fit in a slot are read back from the slot, doubles bit by bit. -/
theorem Chunk.decode_encode_slotChunk {v : Value} {t : DataType} (h : v.HasType t) :
    t.slotChunk.decode (t.slotChunk.encode v) = v := by
  cases t with
  | int => exact decode_encode_int32 h
  | float =>
    cases v with
    | float x =>
      have hencode : Chunk.float64.encode (.float x) = Chunk.float64.numberCells x.bits.toNat := rfl
      rw [DataType.slotChunk, hencode, decode_numberCells, ofNumber, BitVec.ofNat_toNat,
        BitVec.setWidth_eq]
    | undefined => rfl
    | int n => cases h
    | ptr b o => cases h

end RegisterMachine
