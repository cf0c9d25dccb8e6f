import RegisterMachine.Memory.Slot
import RegisterMachine.Proofs.Results

/-! # Bounds of memory blocks

Whether a block is live, and between which bounds it may be accessed, is fixed when it is allocated
and changes only when it is freed. This file says what each operation on memory does to bounds, and
when an access succeeds in terms of bounds alone; the contents of blocks play no part in either.

* `Chunk.FitsIn` — an access lies within bounds and is aligned.
* `Memory.load_isOk_iff`, `Memory.store_isOk_iff` — accesses succeed exactly where they fit.
* `Memory.SameBounds` — two memories with the same blocks between the same bounds.
* `Memory.bounds?_alloc`, `Memory.bounds?_of_free`, `Memory.SameBounds.of_store` — what the
  operations do.
-/

namespace RegisterMachine

/-! ## Accesses within bounds -/

/-- An access at an offset lies between two bounds and is aligned. -/
def Chunk.FitsIn (c : Chunk) (offset lo hi : Int) : Prop :=
  lo ≤ offset ∧ offset + c.size ≤ hi ∧ offset % c.align = 0

namespace Memory

variable {m m' : Memory} {b : BlockId} {c : Chunk} {offset lo hi : Int} {v : Value}

/-- The bounds of a live block are those of its region. -/
theorem bounds?_eq_some_iff :
    m.bounds? b = some (lo, hi) ↔ ∃ r, m.region? b = some r ∧ r.lo = lo ∧ r.hi = hi := by
  simp [bounds?]

/-- A block is live if it has bounds. -/
theorem isLive_eq_isSome_bounds? : m.isLive b = (m.bounds? b).isSome := by
  simp [isLive, bounds?]

/-- A block is live if it has a region. -/
theorem isLive_iff : m.isLive b = true ↔ ∃ r, m.region? b = some r := by
  simp [isLive, Option.isSome_iff_exists]

/-- Block zero is never live. -/
theorem pos_of_isLive (h : m.isLive b = true) : 0 < b := by
  cases b with
  | zero => simp [isLive] at h
  | succ n => exact Nat.succ_pos n

/-- Live blocks have numbers below the next one. -/
theorem lt_nextBlock_of_isLive (h : m.isLive b = true) : b < m.nextBlock := by
  obtain ⟨r, hr⟩ := isLive_iff.1 h
  exact lt_nextBlock_of_region? hr

/-- No access error means that the region admits the access. -/
theorem accessError?_eq_none_iff {r : Region} :
    accessError? r c b offset = none ↔ r.Admits c offset := by
  simp only [accessError?, Region.Admits]
  by_cases h₁ : r.Contains c offset
  · by_cases h₂ : offset % c.align = 0 <;> simp [h₁, h₂]
  · simp [h₁]

/-- A region admits the accesses that fit in its bounds. -/
theorem admits_iff_fitsIn {r : Region} : r.Admits c offset ↔ c.FitsIn offset r.lo r.hi := by
  simp only [Region.Admits, Region.Contains, Chunk.FitsIn, and_assoc]

/-! ## When operations succeed -/

/-- A load reads a region that admits it. -/
theorem load_eq_ok_iff :
    m.load c b offset = .ok v ↔
      ∃ r, m.region? b = some r ∧ r.Admits c offset ∧ r.read c offset = v := by
  unfold load
  cases hr : m.region? b with
  | none => simp
  | some r =>
    rw [show (∃ r', some r = some r' ∧ r'.Admits c offset ∧ r'.read c offset = v) ↔
      r.Admits c offset ∧ r.read c offset = v by simp, ← accessError?_eq_none_iff (b := b)]
    cases h : accessError? r c b offset <;> simp [h]

/-- A store writes a region that admits it. -/
theorem store_eq_ok_iff :
    m.store c b offset v = .ok m' ↔
      ∃ r, m.region? b = some r ∧ r.Admits c offset ∧
        m.update b (fun r => some (r.write c offset v)) = m' := by
  unfold store
  cases hr : m.region? b with
  | none => simp
  | some r =>
    rw [show (∃ r', some r = some r' ∧ r'.Admits c offset ∧
        m.update b (fun r => some (r.write c offset v)) = m') ↔
      r.Admits c offset ∧ m.update b (fun r => some (r.write c offset v)) = m' by simp,
      ← accessError?_eq_none_iff (b := b)]
    cases h : accessError? r c b offset <;> simp [h]

/-- A store changes no other block than its own. -/
theorem region?_of_store {b' : BlockId} (h : m.store c b offset v = .ok m') (hb : b' ≠ b) :
    m'.region? b' = m.region? b' := by
  obtain ⟨r, -, -, rfl⟩ := store_eq_ok_iff.1 h
  rw [region?_update, if_neg hb]

/-- A block is freed under its own bounds only. -/
theorem free_eq_ok_iff :
    m.free b lo hi = .ok m' ↔
      m.bounds? b = some (lo, max lo hi) ∧ m.update b (fun _ => none) = m' := by
  unfold free bounds?
  cases hr : m.region? b with
  | none => simp
  | some r =>
    by_cases h : r.lo = lo ∧ r.hi = max lo hi
    · simp [h.1, h.2]
    · simp only [h, if_false, Option.map_some, Option.some.injEq, Prod.mk.injEq, false_and]
      simp

/-- A load succeeds exactly where the access fits in the bounds of a live block. -/
theorem load_isOk_iff :
    (∃ v, m.load c b offset = .ok v) ↔
      ∃ lo hi, m.bounds? b = some (lo, hi) ∧ c.FitsIn offset lo hi := by
  simp only [load_eq_ok_iff, admits_iff_fitsIn, bounds?_eq_some_iff]
  constructor
  · rintro ⟨v, r, hr, hfit, -⟩
    exact ⟨r.lo, r.hi, ⟨r, hr, rfl, rfl⟩, hfit⟩
  · rintro ⟨_, _, ⟨r, hr, rfl, rfl⟩, hfit⟩
    exact ⟨_, r, hr, hfit, rfl⟩

/-- A store succeeds exactly where the access fits in the bounds of a live block. -/
theorem store_isOk_iff :
    (∃ m', m.store c b offset v = .ok m') ↔
      ∃ lo hi, m.bounds? b = some (lo, hi) ∧ c.FitsIn offset lo hi := by
  simp only [store_eq_ok_iff, admits_iff_fitsIn, bounds?_eq_some_iff]
  constructor
  · rintro ⟨m', r, hr, hfit, -⟩
    exact ⟨r.lo, r.hi, ⟨r, hr, rfl, rfl⟩, hfit⟩
  · rintro ⟨_, _, ⟨r, hr, rfl, rfl⟩, hfit⟩
    exact ⟨_, r, hr, hfit, rfl⟩

/-! ## What operations do to bounds -/

/-- Two memories have the same blocks, each between the same bounds. -/
structure SameBounds (m m' : Memory) : Prop where
  /-- The same blocks have been allocated. -/
  nextBlock : m'.nextBlock = m.nextBlock
  /-- The same blocks are live, between the same bounds. -/
  bounds : ∀ b, m'.bounds? b = m.bounds? b

namespace SameBounds

/-- Every memory has the bounds of itself. -/
theorem refl (m : Memory) : m.SameBounds m := ⟨rfl, fun _ => rfl⟩

/-- Bounds that do not change twice do not change. -/
theorem trans {m₁ m₂ m₃ : Memory} (h : m₁.SameBounds m₂) (h' : m₂.SameBounds m₃) :
    m₁.SameBounds m₃ :=
  ⟨h'.nextBlock.trans h.nextBlock, fun b => (h'.bounds b).trans (h.bounds b)⟩

/-- It does not matter which memory comes first. -/
theorem symm (h : m.SameBounds m') : m'.SameBounds m :=
  ⟨h.nextBlock.symm, fun b => (h.bounds b).symm⟩

/-- Equal bounds make equal blocks live. -/
theorem isLive_eq (h : m.SameBounds m') (b : BlockId) : m'.isLive b = m.isLive b := by
  rw [isLive_eq_isSome_bounds?, isLive_eq_isSome_bounds?, h.bounds]

/-- A store changes no bounds. -/
theorem of_store (h : m.store c b offset v = .ok m') : m.SameBounds m' := by
  obtain ⟨r, hr, -, rfl⟩ := store_eq_ok_iff.1 h
  refine ⟨by simp, fun b' => ?_⟩
  simp only [bounds?, region?_update]
  by_cases hb : b' = b
  · subst hb
    simp [hr, Region.write]
  · rw [if_neg hb]

/-- A store through a pointer changes no bounds. -/
theorem of_storeAt {a : Value} (h : m.storeAt c a v = .ok m') : m.SameBounds m' := by
  cases a with
  | ptr b o => exact of_store h
  | int n => simp [storeAt] at h
  | float x => simp [storeAt] at h
  | undefined => simp [storeAt] at h

/-- A store into a slot changes no bounds. -/
theorem of_storeSlot {sp : Value} {t : DataType} {slot : Word}
    (h : m.storeSlot sp t slot v = .ok m') : m.SameBounds m' := by
  obtain ⟨a, -, ha⟩ := bind_eq_ok_iff.1 h
  exact of_storeAt ha

end SameBounds

/-- An allocation gives the next block its bounds, the upper one raised to the lower one. -/
theorem bounds?_alloc (m : Memory) (lo hi : Int) (b : BlockId) :
    (m.alloc lo hi).2.bounds? b =
      if b = m.nextBlock then some (lo, max lo hi) else m.bounds? b := by
  simp only [bounds?, region?_alloc]
  by_cases h : b = m.nextBlock
  · simp [h, Region.fresh]
  · simp [h]

/-- Freeing a block takes its bounds away and leaves all others. -/
theorem bounds?_of_free (h : m.free b lo hi = .ok m') (b' : BlockId) :
    m'.bounds? b' = if b' = b then none else m.bounds? b' := by
  obtain ⟨-, rfl⟩ := free_eq_ok_iff.1 h
  simp only [bounds?, region?_update]
  by_cases hb : b' = b <;> simp [hb]

/-- Freeing a block does not make its number available again. -/
theorem nextBlock_of_free (h : m.free b lo hi = .ok m') : m'.nextBlock = m.nextBlock := by
  obtain ⟨-, rfl⟩ := free_eq_ok_iff.1 h
  exact nextBlock_update m b _

/-! ## Slots -/

/-- The offset of a slot is that of the stack pointer moved up by words, wrapped to a word. -/
theorem toInt_slotOffset_eq_bmod (o slot : Word) :
    (o + slot * 4#32).toInt = (o.toInt + 4 * slot.toInt).bmod 4294967296 := by
  rw [BitVec.toInt_add, BitVec.toInt_mul, Int.add_bmod_bmod, Int.mul_comm]
  rfl

/-- The offset of a slot does not wrap where it is the signed reading of a word. -/
theorem toInt_slotOffset_of_le {o slot : Word} (hlo : -2147483648 ≤ o.toInt + 4 * slot.toInt)
    (hhi : o.toInt + 4 * slot.toInt < 2147483648) :
    (o + slot * 4#32).toInt = o.toInt + 4 * slot.toInt := by
  rw [toInt_slotOffset_eq_bmod, Int.bmod_eq_of_le]
  · simpa using hlo
  · simpa using hhi

/-- A slot is loaded through the pointer to its first byte. -/
theorem loadSlot_eq_ok_iff {sp : Value} {t : DataType} {slot : Word} :
    m.loadSlot sp t slot = .ok v ↔
      ∃ b o, sp = .ptr b o ∧ m.load t.slotChunk b (o + slot * 4#32).toInt = .ok v := by
  unfold loadSlot
  rw [bind_eq_ok_iff]
  constructor
  · rintro ⟨a, ha, hv⟩
    obtain ⟨b, o, rfl, rfl⟩ := slotAddress_eq_ok_iff.1 ha
    exact ⟨b, o, rfl, hv⟩
  · rintro ⟨b, o, rfl, hv⟩
    exact ⟨_, slotAddress_ptr b o slot, hv⟩

/-- A slot is stored through the pointer to its first byte. -/
theorem storeSlot_eq_ok_iff {sp : Value} {t : DataType} {slot : Word} :
    m.storeSlot sp t slot v = .ok m' ↔
      ∃ b o, sp = .ptr b o ∧ m.store t.slotChunk b (o + slot * 4#32).toInt v = .ok m' := by
  unfold storeSlot
  rw [bind_eq_ok_iff]
  constructor
  · rintro ⟨a, ha, hv⟩
    obtain ⟨b, o, rfl, rfl⟩ := slotAddress_eq_ok_iff.1 ha
    exact ⟨b, o, rfl, hv⟩
  · rintro ⟨b, o, rfl, hv⟩
    exact ⟨_, slotAddress_ptr b o slot, hv⟩

end Memory

end RegisterMachine
