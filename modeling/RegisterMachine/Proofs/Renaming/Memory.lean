import RegisterMachine.Proofs.Memory.Bounds
import RegisterMachine.Proofs.Renaming.Values

/-! # Renaming blocks in memory

Memory in which blocks are renamed has the same regions under other numbers, and renamed pointers in
their cells. Operations on both lead to memories of which the same is true again, or fail with the
same error up to the renaming.

* `Cell.rename`, `Region.rename`, `MemoryError.rename` — cells, regions and errors.
* `Chunk.encode_rename`, `Chunk.decode_rename` — what is written and read.
* `Memory.RenamesAt` — a block of one memory is one of another memory, renamed.
* `Memory.load_renames`, `Memory.store_renames` — accesses to such blocks.
* `Memory.Renames` — all blocks are, and those that have not been allocated keep their numbers.
* `Memory.Renames.alloc`, `Memory.Renames.free`, `Memory.Renames.storeSlot` — operations on such
  memories.
-/

namespace RegisterMachine

variable {ρ : BlockId → BlockId}

/-! ## Cells -/

/-- The cell in which a block is renamed. -/
def Cell.rename (ρ : BlockId → BlockId) : Cell → Cell
  | .fragment b o i => .fragment (ρ b) o i
  | c => c

namespace Cell

/-- Different cells stay different. -/
theorem rename_injective (hρ : Function.Injective ρ) : Function.Injective (rename ρ) := by
  intro c c' h
  cases c <;> cases c' <;> simp_all [rename, hρ.eq_iff]

/-- The bytes of cells do not change. -/
theorem bytes?_rename (cells : List Cell) : bytes? (cells.map (rename ρ)) = bytes? cells := by
  induction cells with
  | nil => rfl
  | cons c cells ih =>
    cases c with
    | byte b => simp only [List.map_cons, rename, bytes?, ih]
    | undefined => rfl
    | fragment b o i => rfl

/-- The parts of a renamed pointer are the renamed parts. -/
theorem fragments_rename (b : BlockId) (o : Word) :
    (fragments b o).map (rename ρ) = fragments (ρ b) o := by
  rw [fragments, fragments, List.map_map]
  rfl

/-- Renamed cells read as the renamed pointer. -/
theorem pointer?_rename (hρ : Function.Injective ρ) (cells : List Cell) :
    pointer? (cells.map (rename ρ)) = (pointer? cells).map (Value.rename ρ) := by
  cases cells with
  | nil => rfl
  | cons c cells =>
    cases c with
    | fragment b o i =>
      -- Cells are the parts of a pointer exactly if the renamed ones are those of the renamed one.
      have hiff : (Cell.fragment b o i :: cells).map (rename ρ) = fragments (ρ b) o ↔
          Cell.fragment b o i :: cells = fragments b o := by
        rw [← fragments_rename, List.map_inj_right fun _ _ h => rename_injective hρ h]
      simp only [List.map_cons, rename] at hiff
      simp only [List.map_cons, rename, pointer?, hiff]
      split <;> rfl
    | byte n => rfl
    | undefined => rfl

end Cell

namespace Chunk

/-- The cells of a number have nothing to rename. -/
theorem numberCells_rename (c : Chunk) (n : Nat) :
    (c.numberCells n).map (Cell.rename ρ) = c.numberCells n := by
  rw [numberCells, List.map_map]
  rfl

/-- The cells for a renamed value are the renamed cells. -/
theorem encode_rename (c : Chunk) (v : Value) :
    c.encode (v.rename ρ) = (c.encode v).map (Cell.rename ρ) := by
  have hunknown : (List.replicate c.size Cell.undefined).map (Cell.rename ρ) =
      List.replicate c.size .undefined := List.map_replicate
  cases v with
  | int n => cases c <;> simp only [Value.rename_int, encode, numberCells_rename, hunknown]
  | float x => cases c <;> simp only [Value.rename_float, encode, numberCells_rename, hunknown]
  | ptr b o => cases c <;> simp only [Value.rename_ptr, encode, Cell.fragments_rename, hunknown]
  | undefined => cases c <;> simp only [Value.rename_undefined, encode, hunknown]

/-- Numbers have nothing to rename. -/
theorem ofNumber_rename (c : Chunk) (n : Nat) : (c.ofNumber n).rename ρ = c.ofNumber n := by
  cases c <;> rfl

/-- Renamed cells read as the renamed value. -/
theorem decode_rename (hρ : Function.Injective ρ) (c : Chunk) (cells : List Cell) :
    c.decode (cells.map (Cell.rename ρ)) = (c.decode cells).rename ρ := by
  simp only [decode, Cell.bytes?_rename, Cell.pointer?_rename hρ]
  split
  · exact (ofNumber_rename c _).symm
  · split
    · cases Cell.pointer? cells <;> rfl
    · rfl

end Chunk

/-! ## Regions -/

/-- The region in the cells of which blocks are renamed. -/
def Region.rename (ρ : BlockId → BlockId) (r : Region) : Region where
  lo := r.lo
  hi := r.hi
  cells := r.cells.map (Cell.rename ρ)
  lo_le_hi := r.lo_le_hi
  size_cells := by rw [Array.size_map]; exact r.size_cells

namespace Region

variable (ρ) (r : Region)

@[simp] theorem lo_rename : (r.rename ρ).lo = r.lo := rfl

@[simp] theorem cells_rename : (r.rename ρ).cells = r.cells.map (Cell.rename ρ) := rfl

/-- Nothing changes if no block is renamed. -/
theorem rename_id : Region.rename id = id := by
  funext r
  have hcell : Cell.rename id = id := by
    funext c
    cases c <;> rfl
  simp only [rename, hcell, Array.map_id, id]

/-- A fresh region has nothing to rename. -/
theorem fresh_rename (lo hi : Int) : (fresh lo hi).rename ρ = fresh lo hi := by
  simp only [rename, fresh, Array.map_replicate, Cell.rename]

/-- The cells of a renamed region are renamed. -/
theorem cellAt_rename (offset : Int) : (r.rename ρ).cellAt offset = (r.cellAt offset).rename ρ := by
  by_cases hlo : r.lo ≤ offset
  · have hlo' : (r.rename ρ).lo ≤ offset := hlo
    rw [cellAt, cellAt, if_pos hlo, if_pos hlo', lo_rename, cells_rename,
      Array.getD_eq_getD_getElem?, Array.getElem?_map, Array.getD_eq_getD_getElem?]
    cases r.cells[(offset - r.lo).toNat]? <;> rfl
  · have hlo' : ¬ (r.rename ρ).lo ≤ offset := hlo
    rw [cellAt, cellAt, if_neg hlo, if_neg hlo']
    rfl

/-- A read from a renamed region has the renamed value. -/
theorem read_rename (hρ : Function.Injective ρ) (c : Chunk) (offset : Int) :
    (r.rename ρ).read c offset = (r.read c offset).rename ρ := by
  have hcells : (r.rename ρ).cellsFrom offset c.size =
      (r.cellsFrom offset c.size).map (Cell.rename ρ) := by
    rw [cellsFrom, cellsFrom, List.map_map]
    exact List.map_congr_left fun i _ => cellAt_rename ρ r _
  rw [read, hcells, Chunk.decode_rename hρ]
  rfl

/-- Cells that are put over others can be renamed before or after. -/
theorem overwrite_rename (cells : Array Cell) (start : Nat) (cs : List Cell) :
    overwrite (cells.map (Cell.rename ρ)) start (cs.map (Cell.rename ρ)) =
      (overwrite cells start cs).map (Cell.rename ρ) := by
  induction cs generalizing cells start with
  | nil => rfl
  | cons c cs ih => rw [List.map_cons, overwrite, overwrite, ← ih, Array.map_setIfInBounds]

/-- A renamed value is written to a renamed region. -/
theorem write_rename (c : Chunk) (offset : Int) (v : Value) :
    (r.rename ρ).write c offset (v.rename ρ) = (r.write c offset v).rename ρ := by
  simp only [write, rename, Chunk.encode_rename, overwrite_rename]

end Region

/-! ## Memory -/

/-- The memory error in which blocks are renamed. -/
def MemoryError.rename (ρ : BlockId → BlockId) : MemoryError → MemoryError
  | .invalidBlock b => .invalidBlock (ρ b)
  | .outOfBounds c b offset lo hi => .outOfBounds c (ρ b) offset lo hi
  | .misaligned c b offset => .misaligned c (ρ b) offset
  | .notAPointer v => .notAPointer (v.rename ρ)
  | .badFree b lo hi => .badFree (ρ b) lo hi

namespace Memory

variable {m m' m₁ m₁' : Memory} {b : BlockId} {c : Chunk} {offset lo hi : Int} {v sp : Value}
  {t : DataType} {slot : Word}

/-- A block of a memory has in another memory, under its new number, the renamed contents. -/
def RenamesAt (ρ : BlockId → BlockId) (b : BlockId) (m m' : Memory) : Prop :=
  m'.region? (ρ b) = (m.region? b).map (Region.rename ρ)

/-- Accesses to renamed regions fail where they did. -/
theorem accessError?_rename (r : Region) :
    accessError? (r.rename ρ) c (ρ b) offset =
      (accessError? r c b offset).map (MemoryError.rename ρ) := by
  have hcontains : (r.rename ρ).Contains c offset ↔ r.Contains c offset := Iff.rfl
  have hadmits : (r.rename ρ).Admits c offset ↔ r.Admits c offset := Iff.rfl
  simp only [accessError?, hcontains, hadmits]
  split
  · rfl
  · split <;> rfl

/-- What is read from a renamed block is renamed. -/
theorem load_renames (hρ : Function.Injective ρ) (h : RenamesAt ρ b m m') :
    Corresponds (MemoryError.rename ρ) (fun v v' => v' = v.rename ρ) (m.load c b offset)
      (m'.load c (ρ b) offset) := by
  rw [load, load, h]
  cases m.region? b with
  | none => exact .error _
  | some r =>
    simp only [Option.map_some, accessError?_rename]
    cases accessError? r c b offset with
    | none => exact .ok (Region.read_rename ρ r hρ c offset)
    | some e => exact .error e

/-- A renamed value is written to a renamed block: what was renamed stays renamed. -/
theorem store_renames (hρ : Function.Injective ρ) (h : RenamesAt ρ b m m') :
    Corresponds (MemoryError.rename ρ)
      (fun m₁ m₁' => m₁.nextBlock = m.nextBlock ∧ m₁'.nextBlock = m'.nextBlock ∧
        ∀ b', RenamesAt ρ b' m m' → RenamesAt ρ b' m₁ m₁')
      (m.store c b offset v) (m'.store c (ρ b) offset (v.rename ρ)) := by
  have hregion := h
  rw [RenamesAt] at hregion
  rw [store, store, hregion]
  cases hr : m.region? b with
  | none => exact .error _
  | some r =>
    simp only [Option.map_some, accessError?_rename]
    cases accessError? r c b offset with
    | some e => exact .error e
    | none =>
      refine .ok ⟨nextBlock_update .., nextBlock_update .., fun b' hb' => ?_⟩
      rw [RenamesAt, region?_update, region?_update, hregion, hr]
      by_cases heq : b' = b
      · subst heq
        simp [Region.write_rename]
      · rw [if_neg heq, if_neg fun h => heq (hρ h)]
        exact hb'

/-- One memory is another one with its blocks renamed. -/
structure Renames (ρ : BlockId → BlockId) (m m' : Memory) : Prop where
  /-- Different blocks stay different. -/
  injective : Function.Injective ρ
  /-- As many blocks have been allocated. -/
  nextBlock : m'.nextBlock = m.nextBlock
  /-- Blocks that have not been allocated keep their numbers. -/
  fresh : ∀ b, m.nextBlock ≤ b → ρ b = b
  /-- All blocks have the renamed contents under their new numbers. -/
  regions : ∀ b, RenamesAt ρ b m m'

namespace Renames

/-- An allocation on both sides makes the same block. -/
theorem alloc (h : m.Renames ρ m') :
    (m.alloc lo hi).2.Renames ρ (m'.alloc lo hi).2 := by
  refine ⟨h.injective, ?_, fun b hb => ?_, fun b => ?_⟩
  · rw [nextBlock_alloc, nextBlock_alloc, h.nextBlock]
  · rw [nextBlock_alloc] at hb
    exact h.fresh b (Nat.le_of_succ_le hb)
  · have hnext : ρ b = m'.nextBlock ↔ b = m.nextBlock := by
      rw [← h.injective.eq_iff (b := m.nextBlock), h.fresh _ (Nat.le_refl _), h.nextBlock]
    simp only [RenamesAt, region?_alloc, hnext]
    split
    · exact congrArg some (Region.fresh_rename ρ lo hi).symm
    · exact h.regions b

/-- What is read at a renamed address is renamed. -/
theorem loadAt (h : m.Renames ρ m') (c : Chunk) (a : Value) :
    Corresponds (MemoryError.rename ρ) (fun v v' => v' = v.rename ρ) (m.loadAt c a)
      (m'.loadAt c (a.rename ρ)) := by
  cases a with
  | ptr b o => exact load_renames h.injective (h.regions b)
  | int n => exact .error _
  | float x => exact .error _
  | undefined => exact .error _

/-- A renamed value is written at a renamed address. -/
theorem storeAt (h : m.Renames ρ m') (c : Chunk) (a v : Value) :
    Corresponds (MemoryError.rename ρ) (Renames ρ) (m.storeAt c a v)
      (m'.storeAt c (a.rename ρ) (v.rename ρ)) := by
  cases a with
  | ptr b o =>
    refine (store_renames h.injective (h.regions b)).imp ?_
    rintro m₁ m₁' ⟨hnext, hnext', hregions⟩
    refine ⟨h.injective, ?_, fun b hb => ?_, fun b => hregions b (h.regions b)⟩
    · rw [hnext, hnext', h.nextBlock]
    · exact h.fresh b (hnext ▸ hb)
  | int n => exact .error _
  | float x => exact .error _
  | undefined => exact .error _

/-- The address of a slot is renamed. -/
theorem slotAddress (ρ : BlockId → BlockId) (sp : Value) (slot : Word) :
    Corresponds (MemoryError.rename ρ) (fun a a' => a' = a.rename ρ)
      (RegisterMachine.slotAddress sp slot) (RegisterMachine.slotAddress (sp.rename ρ) slot) := by
  cases sp with
  | ptr b o => exact .ok rfl
  | int n => exact .error (MemoryError.notAPointer (.int n))
  | float x => exact .error (MemoryError.notAPointer (.float x))
  | undefined => exact .error (MemoryError.notAPointer .undefined)

/-- What is read from a slot is renamed. -/
theorem loadSlot (h : m.Renames ρ m') (sp : Value) (t : DataType) (slot : Word) :
    Corresponds (MemoryError.rename ρ) (fun v v' => v' = v.rename ρ) (m.loadSlot sp t slot)
      (m'.loadSlot (sp.rename ρ) t slot) := by
  refine (slotAddress ρ sp slot).bind ?_
  rintro a _ rfl
  exact h.loadAt _ a

/-- A renamed value is written into a slot. -/
theorem storeSlot (h : m.Renames ρ m') (sp : Value) (t : DataType) (slot : Word) (v : Value) :
    Corresponds (MemoryError.rename ρ) (Renames ρ) (m.storeSlot sp t slot v)
      (m'.storeSlot (sp.rename ρ) t slot (v.rename ρ)) := by
  refine (slotAddress ρ sp slot).bind ?_
  rintro a _ rfl
  exact h.storeAt _ a v

/-- A renamed block is freed. -/
theorem free (h : m.Renames ρ m') (b : BlockId) (lo hi : Int) :
    Corresponds (MemoryError.rename ρ) (Renames ρ) (m.free b lo hi) (m'.free (ρ b) lo hi) := by
  have hregion := h.regions b
  rw [RenamesAt] at hregion
  rw [Memory.free, Memory.free, hregion]
  cases hr : m.region? b with
  | none => exact .error _
  | some r =>
    simp only [Option.map_some]
    by_cases hbounds : r.lo = lo ∧ r.hi = max lo hi
    · have hbounds' : (r.rename ρ).lo = lo ∧ (r.rename ρ).hi = max lo hi := hbounds
      rw [if_pos hbounds, if_pos hbounds']
      refine .ok ⟨h.injective, ?_, fun b' hb' => ?_, fun b' => ?_⟩
      · rw [nextBlock_update, nextBlock_update, h.nextBlock]
      · rw [nextBlock_update] at hb'
        exact h.fresh b' hb'
      · simp only [RenamesAt, region?_update, h.injective.eq_iff]
        split
        · simp
        · exact h.regions b'
    · have hbounds' : ¬ ((r.rename ρ).lo = lo ∧ (r.rename ρ).hi = max lo hi) := hbounds
      rw [if_neg hbounds, if_neg hbounds']
      exact .error (MemoryError.badFree b lo hi)

end Renames

end Memory

end RegisterMachine
