import RegisterMachine.Memory.Cell

/-! # Regions

A region is the contents of one block of memory: bounds, and a cell for every offset between them.
An access touches consecutive cells, all of which must lie within the bounds, from an offset that is
a multiple of the alignment of its chunk.

* `Region`, `Region.fresh` — bounds and cells; a region of cells of which nothing is known.
* `Region.cellAt` — the cell at an offset.
* `Region.Admits` — whether an access is possible at an offset.
* `Region.read`, `Region.write` — the value of an access, and the region after one.
-/

namespace RegisterMachine

/-- The contents of a block. -/
structure Region where
  /-- The least offset. -/
  lo : Int
  /-- The offset just after the greatest one. -/
  hi : Int
  /-- The cell at each offset from `lo` on. -/
  cells : Array Cell
  /-- Bounds are in order. -/
  lo_le_hi : lo ≤ hi
  /-- There is one cell per offset. -/
  size_cells : cells.size = (hi - lo).toNat
  deriving DecidableEq

/-- The cells of an array after those of a list have been put over it from a position on. -/
def overwrite (cells : Array Cell) (start : Nat) : List Cell → Array Cell
  | [] => cells
  | c :: cs => overwrite (cells.setIfInBounds start c) (start + 1) cs

@[simp] theorem size_overwrite (cells : Array Cell) (start : Nat) (cs : List Cell) :
    (overwrite cells start cs).size = cells.size := by
  induction cs generalizing cells start with
  | nil => rfl
  | cons c cs ih => simp [overwrite, ih]

/-- Each position holds the new cell where one was put, and the old one elsewhere. -/
theorem getElem?_overwrite (cells : Array Cell) (start i : Nat) (cs : List Cell) :
    (overwrite cells start cs)[i]? =
      if start ≤ i ∧ i < start + cs.length ∧ i < cells.size then cs[i - start]? else cells[i]? := by
  induction cs generalizing cells start with
  | nil =>
    have h : ¬ (start ≤ i ∧ i < start + ([] : List Cell).length ∧ i < cells.size) := by simp; omega
    rw [if_neg h]; rfl
  | cons c cs ih =>
    rw [overwrite, ih, Array.size_setIfInBounds, Array.getElem?_setIfInBounds, List.length_cons]
    by_cases h₀ : start = i
    · subst h₀
      by_cases h₁ : start < cells.size
      · have h₂ : ¬ (start + 1 ≤ start ∧ start < start + 1 + cs.length ∧ start < cells.size) := by
          omega
        have h₃ : start ≤ start ∧ start < start + (cs.length + 1) ∧ start < cells.size := by omega
        rw [if_neg h₂, if_pos h₃]
        simp [h₁]
      · simp [h₁]
    · rw [if_neg h₀]
      by_cases h₁ : start + 1 ≤ i ∧ i < start + 1 + cs.length ∧ i < cells.size
      · rw [if_pos h₁, if_pos (by omega), show i - start = (i - (start + 1)) + 1 by omega,
          List.getElem?_cons_succ]
      · rw [if_neg h₁, if_neg (by omega)]

namespace Region

/-- The region between two bounds of which nothing is known. It is empty if the bounds are not in
order. -/
def fresh (lo hi : Int) : Region where
  lo := lo
  hi := max lo hi
  cells := Array.replicate (max lo hi - lo).toNat .undefined
  lo_le_hi := by omega
  size_cells := by simp

/-- The cell at an offset; nothing is known outside the bounds. -/
def cellAt (r : Region) (offset : Int) : Cell :=
  if r.lo ≤ offset then r.cells.getD (offset - r.lo).toNat .undefined else .undefined

/-- Whether an access at an offset lies within the bounds. -/
def Contains (r : Region) (c : Chunk) (offset : Int) : Prop :=
  r.lo ≤ offset ∧ offset + c.size ≤ r.hi

instance (r : Region) (c : Chunk) (offset : Int) : Decidable (r.Contains c offset) :=
  inferInstanceAs (Decidable (_ ∧ _))

/-- Whether an access is possible at an offset. -/
def Admits (r : Region) (c : Chunk) (offset : Int) : Prop :=
  r.Contains c offset ∧ offset % c.align = 0

instance (r : Region) (c : Chunk) (offset : Int) : Decidable (r.Admits c offset) :=
  inferInstanceAs (Decidable (_ ∧ _))

/-- The cells from an offset on. -/
def cellsFrom (r : Region) (offset : Int) (count : Nat) : List Cell :=
  (List.range count).map fun (i : Nat) => r.cellAt (offset + (i : Int))

/-- The value that an access reads at an offset. -/
def read (r : Region) (c : Chunk) (offset : Int) : Value := c.decode (r.cellsFrom offset c.size)

/-- The region after an access wrote a value at an offset. -/
def write (r : Region) (c : Chunk) (offset : Int) (v : Value) : Region where
  lo := r.lo
  hi := r.hi
  cells := overwrite r.cells (offset - r.lo).toNat (c.encode v)
  lo_le_hi := r.lo_le_hi
  size_cells := by rw [size_overwrite]; exact r.size_cells

@[simp] theorem length_cellsFrom (r : Region) (offset : Int) (count : Nat) :
    (r.cellsFrom offset count).length = count := by
  simp [cellsFrom]

@[simp] theorem cellAt_fresh (lo hi offset : Int) : (fresh lo hi).cellAt offset = .undefined := by
  simp only [cellAt, fresh, Array.getD_eq_getD_getElem?, Array.getElem?_replicate]
  split
  · split <;> rfl
  · rfl

end Region

end RegisterMachine
