import RegisterMachine.Proofs.Memory.Bytes

/-! # Memories that agree outside of a set of bytes

Two memories have the same blocks, but some of their bytes hold different cells. As long as none of
these bytes is read, operations on the one memory cannot be told from those on the other one.

* `Memory.region?_cases`, `Memory.accessError?_congr` — blocks with the same bounds, and why an
  access to one of them is refused.
* `Memory.AgreeOutside` — memories with the same blocks that agree outside of a set of bytes.
* `Value.Meets`, `Value.SlotMeets` — accesses to bytes of the set.
* `Memory.AgreeOutside.load`, `Memory.AgreeOutside.loadSlot` — other accesses read the same.
* `Memory.AgreeOutside.store`, `Memory.AgreeOutside.alloc`, `Memory.AgreeOutside.free` — memories
  still agree after the same operation on both.
-/

namespace RegisterMachine

/-! ## Accesses to a set of bytes -/

/-- Whether an access through a value reads a byte of a set. -/
def Value.Meets (D : BlockId → Int → Prop) (c : Chunk) (a : Value) : Prop :=
  ∃ b o x, a = .ptr b o ∧ o.toInt ≤ x ∧ x < o.toInt + c.size ∧ D b x

/-- Whether an access to a slot reads a byte of a set. -/
def Value.SlotMeets (D : BlockId → Int → Prop) (sp : Value) (t : DataType) (slot : Word) : Prop :=
  ∃ a, slotAddress sp slot = .ok a ∧ a.Meets D t.slotChunk

namespace Memory

variable {m m' : Memory} {b : BlockId} {c : Chunk} {offset lo hi : Int} {v w : Value}
  {D : BlockId → Int → Prop}

/-- Blocks with the same bounds are both dead, or have regions between the same bounds. -/
theorem region?_cases (h : m'.bounds? b = m.bounds? b) :
    (m.region? b = none ∧ m'.region? b = none) ∨
      ∃ r r', m.region? b = some r ∧ m'.region? b = some r' ∧ r'.lo = r.lo ∧ r'.hi = r.hi := by
  unfold bounds? at h
  cases hr : m.region? b with
  | none =>
    rw [hr, Option.map_none, Option.map_eq_none_iff] at h
    exact .inl ⟨rfl, h⟩
  | some r =>
    rw [hr, Option.map_some, Option.map_eq_some_iff] at h
    obtain ⟨r', hr', heq⟩ := h
    exact .inr ⟨r, r', rfl, hr', Prod.mk.inj heq⟩

/-- Why an access is refused depends on the bounds of the block alone. -/
theorem accessError?_congr (h : m'.bounds? b = m.bounds? b) :
    ((m'.region? b).map fun r => accessError? r c b offset) =
      (m.region? b).map fun r => accessError? r c b offset := by
  rcases region?_cases h with ⟨hr, hr'⟩ | ⟨r, r', hr, hr', hlo, hhi⟩
  · rw [hr, hr']
  · have hcontains : r'.Contains c offset ↔ r.Contains c offset := by
      simp only [Region.Contains, hlo, hhi]
    have hadmits : r'.Admits c offset ↔ r.Admits c offset := and_congr_left' hcontains
    simp only [hr, hr', Option.map_some, accessError?, hcontains, hadmits, hlo, hhi]

/-- A store is refused for a reason that depends on the bounds of the block alone, and not on the
value. -/
theorem store_eq_error_of_bounds {e : MemoryError} (hbounds : m'.bounds? b = m.bounds? b)
    (h : m.store c b offset v = .error e) : m'.store c b offset w = .error e := by
  unfold store at h ⊢
  rw [accessError?_congr hbounds]
  split at h
  · exact h
  · exact h
  · cases h

/-- A load is refused for the same reason as a store of any value. -/
theorem load_eq_error_iff {e : MemoryError} (v : Value) :
    m.load c b offset = .error e ↔ m.store c b offset v = .error e := by
  unfold load store
  cases m.region? b with
  | none => simp
  | some r =>
    simp only [Option.map_some]
    cases accessError? r c b offset with
    | none => simp
    | some e' => simp

/-- Two memories have the same blocks between the same bounds, and outside of a set of bytes the
same cells. -/
structure AgreeOutside (D : BlockId → Int → Prop) (m m' : Memory) : Prop where
  /-- The bounds are the same. -/
  sameBounds : m.SameBounds m'
  /-- So are the cells outside of the set. -/
  cells : ∀ b x, ¬ D b x → m'.cell? b x = m.cell? b x

namespace AgreeOutside

/-- Every memory agrees with itself. -/
theorem refl (D : BlockId → Int → Prop) (m : Memory) : m.AgreeOutside D m :=
  ⟨.refl m, fun _ _ _ => rfl⟩

/-! ## Loads -/

/-- An access that reads no byte of the set reads the same from both memories. -/
theorem load (h : m.AgreeOutside D m')
    (hreads : ∀ x, offset ≤ x → x < offset + c.size → ¬ D b x) :
    m'.load c b offset = m.load c b offset := by
  cases hload : m.load c b offset with
  | error e =>
    have hstore := (load_eq_error_iff .undefined).1 hload
    exact (load_eq_error_iff .undefined).2
      (store_eq_error_of_bounds (h.sameBounds.bounds b) hstore)
  | ok v => exact (load_congr fun i hi => h.cells b _ (hreads _ (by omega) (by omega))).2 hload

/-- An access through a pointer that reads no byte of the set reads the same. -/
theorem loadAt (h : m.AgreeOutside D m') {a : Value} (hreads : ¬ a.Meets D c) :
    m'.loadAt c a = m.loadAt c a := by
  cases a with
  | ptr b o => exact h.load fun x hlo hhi hD => hreads ⟨b, o, x, rfl, hlo, hhi, hD⟩
  | int n => rfl
  | float x => rfl
  | undefined => rfl

/-- A slot without bytes of the set reads the same. -/
theorem loadSlot (h : m.AgreeOutside D m') {sp : Value} {t : DataType} {slot : Word}
    (hreads : ¬ sp.SlotMeets D t slot) : m'.loadSlot sp t slot = m.loadSlot sp t slot := by
  unfold Memory.loadSlot
  cases ha : slotAddress sp slot with
  | error e => rfl
  | ok a => exact h.loadAt fun hmeets => hreads ⟨a, ha, hmeets⟩

/-! ## Other operations -/

/-- Memories still agree when the same value is written to both, or bytes of the set are
written. -/
theorem store (h : m.AgreeOutside D m')
    (hw : w = v ∨ ∀ x, offset ≤ x → x < offset + c.size → D b x) :
    Corresponds id (AgreeOutside D) (m.store c b offset v) (m'.store c b offset w) := by
  cases hstore : m.store c b offset v with
  | error e =>
    rw [store_eq_error_of_bounds (h.sameBounds.bounds b) hstore]
    exact .error e
  | ok m₁ =>
    obtain ⟨m₁', hstore'⟩ : ∃ m₁', m'.store c b offset w = .ok m₁' := by
      rw [store_isOk_iff, h.sameBounds.bounds]
      exact store_isOk_iff.1 ⟨m₁, hstore⟩
    rw [hstore']
    have hbounds : m₁.SameBounds m₁' :=
      (SameBounds.of_store hstore).symm.trans (h.sameBounds.trans (.of_store hstore'))
    refine .ok ⟨hbounds, fun b' x hx => ?_⟩
    rw [cell?_of_store hstore', cell?_of_store hstore]
    by_cases hin : b' = b ∧ offset ≤ x ∧ x < offset + c.size
    · -- A byte that is written lies outside of the set only if the values are the same.
      have hsame : w = v :=
        hw.resolve_right fun hD => hx (hin.1 ▸ hD x hin.2.1 hin.2.2)
      rw [if_pos hin, if_pos hin, hsame]
    · rw [if_neg hin, if_neg hin, h.cells b' x hx]

/-- Memories still agree when the same value is written through a pointer. -/
theorem storeAt (h : m.AgreeOutside D m') (c : Chunk) (a v : Value) :
    Corresponds id (AgreeOutside D) (m.storeAt c a v) (m'.storeAt c a v) := by
  cases a with
  | ptr b o => exact h.store (.inl rfl)
  | int n => exact .error (MemoryError.notAPointer (.int n))
  | float x => exact .error (MemoryError.notAPointer (.float x))
  | undefined => exact .error (MemoryError.notAPointer .undefined)

/-- Memories still agree when the same value is written into a slot. -/
theorem storeSlot (h : m.AgreeOutside D m') (sp : Value) (t : DataType) (slot : Word) (v : Value) :
    Corresponds id (AgreeOutside D) (m.storeSlot sp t slot v) (m'.storeSlot sp t slot v) := by
  unfold Memory.storeSlot
  cases slotAddress sp slot with
  | error e => exact .error e
  | ok a => exact h.storeAt t.slotChunk a v

/-- Memories still agree when a block is allocated in both. -/
theorem alloc (h : m.AgreeOutside D m') (lo hi : Int) :
    (m.alloc lo hi).2.AgreeOutside D (m'.alloc lo hi).2 := by
  have hnext := h.sameBounds.nextBlock
  refine ⟨⟨?_, fun b => ?_⟩, fun b x hx => ?_⟩
  · rw [nextBlock_alloc, nextBlock_alloc, hnext]
  · rw [bounds?_alloc, bounds?_alloc, hnext, h.sameBounds.bounds]
  · rw [cell?_alloc, cell?_alloc, hnext, h.cells b x hx]

/-- Memories still agree when a block is freed in both, and it is refused for the same reason. -/
theorem free (h : m.AgreeOutside D m') (b : BlockId) (lo hi : Int) :
    Corresponds id (AgreeOutside D) (m.free b lo hi) (m'.free b lo hi) := by
  have hbounds := h.sameBounds.bounds b
  cases hfree : m.free b lo hi with
  | ok m₁ =>
    obtain ⟨m₁', hfree'⟩ : ∃ m₁', m'.free b lo hi = .ok m₁' :=
      ⟨_, free_eq_ok_iff.2 ⟨hbounds.trans (free_eq_ok_iff.1 hfree).1, rfl⟩⟩
    rw [hfree']
    refine .ok ⟨⟨?_, fun b' => ?_⟩, fun b' x hx => ?_⟩
    · rw [nextBlock_of_free hfree', nextBlock_of_free hfree, h.sameBounds.nextBlock]
    · rw [bounds?_of_free hfree', bounds?_of_free hfree, h.sameBounds.bounds]
    · rw [cell?_of_free hfree', cell?_of_free hfree, h.cells b' x hx]
  | error e =>
    have hfree' : m'.free b lo hi = .error e := by
      rw [Memory.free] at hfree ⊢
      rcases region?_cases hbounds with ⟨hr, hr'⟩ | ⟨r, r', hr, hr', hlo, hhi⟩
      · simpa only [hr, hr'] using hfree
      · simp only [hr, hr', hlo, hhi] at hfree ⊢
        split at hfree
        · cases hfree
        · rename_i hne
          rw [if_neg hne]
          exact hfree
    rw [hfree']
    exact .error e

end AgreeOutside

end Memory

end RegisterMachine
