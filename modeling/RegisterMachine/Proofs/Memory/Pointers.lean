import RegisterMachine.Proofs.Memory.Journal

/-! # Pointers that are read back

A pointer lies in memory in four parts. Stores of other widths can tear it, overwrite some of its
parts and put parts of other pointers beside them. Still a load yields a pointer only where the last
store that touched the bytes of the load stored that pointer as a whole: a part of a pointer tells
its own place within the pointer, so the store that wrote it is known from a single byte.

* `MemoryChange.Touches`, `MemoryJournal.lastTouching?` — the last store that touched some bytes.
* `MemoryJournal.lastWritten_eq_fragment_iff` — the bytes of a word hold a pointer if the last store
  that touched one of them stored it there.
* `MemorySession.pointer_stored_whole` — what loads have to do with pointers.
-/

namespace RegisterMachine

/-! ## Parts of a pointer -/

/-- Cells that are listed by their places are those of a pointer if each is the part for its place. -/
theorem Cell.map_range_eq_fragments_iff {f : Nat → Cell} {p : BlockId} {w : Word} :
    (List.range 4).map f = Cell.fragments p w ↔ ∀ i : Fin 4, f i.val = .fragment p w i := by
  have hrange : List.range 4 = (List.finRange 4).map Fin.val := by decide
  rw [fragments, hrange, List.map_map, List.map_inj_left]
  simp

/-! ## The last store that touched some bytes -/

/-- A change has written one of the bytes of a block from an offset up to another one. -/
def MemoryChange.Touches (b : BlockId) (lo hi : Int) : MemoryChange → Prop
  | .stored c b' offset _ => b = b' ∧ offset < hi ∧ lo < offset + c.size
  | _ => False

instance (b : BlockId) (lo hi : Int) : DecidablePred (MemoryChange.Touches b lo hi)
  | .stored _ _ _ _ => inferInstanceAs (Decidable (_ ∧ _ ∧ _))
  | .allocated _ _ _ => inferInstanceAs (Decidable False)
  | .freed _ => inferInstanceAs (Decidable False)

/-- The last store that wrote one of the bytes of a block from an offset up to another one. -/
def MemoryJournal.lastTouching? (j : MemoryJournal) (b : BlockId) (lo hi : Int) :
    Option MemoryChange :=
  j.find? fun change => change.Touches b lo hi

namespace MemoryJournal

variable {j : MemoryJournal} {change : MemoryChange} {b p : BlockId} {lo hi x o : Int} {w : Word}

/-- A change that touches none of some bytes leaves each of them as it was. -/
theorem lastWritten_of_not_touches (h : ¬ change.Touches b lo hi) (hlo : lo ≤ x) (hhi : x < hi) :
    lastWritten (change :: j) b x = j.lastWritten b x := by
  cases change with
  | allocated b' lo' hi' => exact lastWritten_allocated
  | freed b' => exact lastWritten_freed
  | stored c b' offset v =>
    have hout : ¬ (b = b' ∧ offset ≤ x ∧ x < offset + c.size) := by
      rintro ⟨rfl, hle, hlt⟩
      exact h ⟨rfl, by omega, by omega⟩
    apply Option.some.inj
    rw [some_lastWritten_stored, if_neg hout]

/-- A change that has touched the bytes of a word, each of which holds its part of a pointer since,
stored the pointer there. -/
theorem eq_stored_of_touches (h : change.Touches b o (o + 4))
    (hcells : ∀ i : Fin 4, lastWritten (change :: j) b (o + i.val) = .fragment p w i) :
    change = .stored .int32 b o (.ptr p w) := by
  cases change with
  | allocated b' lo' hi' => cases h
  | freed b' => cases h
  | stored c b' offset v =>
    obtain ⟨rfl, hlt, hgt⟩ := h
    have hsize := c.size_pos
    -- The first byte that the word and the store have in common shows what was stored, and where.
    obtain ⟨i, hi⟩ : ∃ i : Fin 4, o + i.val = max o offset :=
      ⟨⟨(max o offset - o).toNat, by omega⟩, by simp only; omega⟩
    have hcell := congrArg some (hcells i)
    rw [some_lastWritten_stored, if_pos ⟨rfl, by omega, by omega⟩] at hcell
    obtain ⟨rfl, rfl, hindex⟩ := Chunk.getElem?_encode_eq_fragment_iff.1 hcell
    have hoffset : offset = o := by omega
    rw [hoffset]

/-- A pointer that was just stored lies there in its parts. -/
theorem lastWritten_stored_ptr (i : Fin 4) :
    lastWritten (.stored .int32 b o (.ptr p w) :: j) b (o + i.val) = .fragment p w i := by
  have hin : o ≤ o + (i.val : Int) ∧ o + (i.val : Int) < o + (Chunk.int32.size : Int) := by
    simp only [Chunk.size]
    omega
  apply Option.some.inj
  rw [some_lastWritten_stored, if_pos ⟨rfl, hin⟩, Chunk.getElem?_encode_eq_fragment_iff]
  exact ⟨rfl, rfl, by omega⟩

/-- The bytes of a word hold the parts of a pointer if the last store that touched one of them
stored the pointer there. -/
theorem lastWritten_eq_fragment_iff :
    (∀ i : Fin 4, j.lastWritten b (o + i.val) = .fragment p w i) ↔
      j.lastTouching? b o (o + 4) = some (.stored .int32 b o (.ptr p w)) := by
  induction j with
  | nil =>
    -- Nothing is known of a byte that was never written.
    constructor
    · intro h
      cases h 0
    · intro h
      cases h
  | cons change j ih =>
    by_cases htouches : change.Touches b o (o + 4)
    · have hlast : lastTouching? (change :: j) b o (o + 4) = some change := by
        simp [lastTouching?, htouches]
      rw [hlast, Option.some.injEq]
      constructor
      · exact eq_stored_of_touches htouches
      · rintro rfl
        exact lastWritten_stored_ptr
    · have hlast : lastTouching? (change :: j) b o (o + 4) = lastTouching? j b o (o + 4) := by
        simp [lastTouching?, htouches]
      have hcells : ∀ i : Fin 4,
          lastWritten (change :: j) b (o + i.val) = lastWritten j b (o + i.val) :=
        fun i => lastWritten_of_not_touches htouches (by omega) (by omega)
      simp only [hlast, hcells, ih]

end MemoryJournal

/-! ## Loads -/

namespace Memory

variable {m : Memory} {c : Chunk} {b p : BlockId} {o : Int} {v : Value} {w : Word}

/-- A pointer is loaded as a word of which the bytes hold its parts in order. -/
theorem load_eq_ptr_iff :
    m.load c b o = .ok (.ptr p w) ↔
      c = .int32 ∧ o % 4 = 0 ∧ ∀ i : Fin 4, m.cell? b (o + i.val) = some (.fragment p w i) := by
  rw [load_eq_ok_iff_cells]
  constructor
  · rintro ⟨halign, cells, -, hcells, hdecode⟩
    obtain ⟨rfl, rfl⟩ := Chunk.decode_eq_ptr_iff.1 hdecode
    refine ⟨rfl, halign, fun i => ?_⟩
    rw [hcells i i.isLt, Cell.getElem?_fragments]
  · rintro ⟨rfl, halign, hcells⟩
    refine ⟨halign, Cell.fragments p w, Cell.length_fragments p w, fun i hi => ?_,
      Chunk.decode_eq_ptr_iff.2 ⟨rfl, rfl⟩⟩
    rw [hcells ⟨i, hi⟩]
    exact (Cell.getElem?_fragments p w ⟨i, hi⟩).symm

/-- A load of bytes that are neither all concrete nor the parts of one pointer in order yields the
undefined value. -/
theorem load_eq_undefined (h : m.load c b o = .ok v)
    (hbytes : ¬ ∀ i : Nat, i < c.size → ∃ byte, m.cell? b (o + i) = some (.byte byte))
    (hparts : ¬ ∃ p w, c.size = 4 ∧ ∀ i : Fin 4, m.cell? b (o + i.val) = some (.fragment p w i)) :
    v = .undefined := by
  obtain ⟨-, cells, hlength, hcells, rfl⟩ := load_eq_ok_iff_cells.1 h
  have hnumber : Cell.bytes? cells = none := by
    rw [Option.eq_none_iff_forall_ne_some]
    intro bytes hsome
    refine hbytes fun i hi => ?_
    have hget := hcells i hi
    rw [Cell.eq_map_of_bytes? hsome, List.getElem?_map] at hget
    rw [Cell.eq_map_of_bytes? hsome, List.length_map] at hlength
    rw [List.getElem?_eq_getElem (by omega)] at hget
    exact ⟨_, hget⟩
  have hpointer : Cell.pointer? cells = none := by
    rw [Option.eq_none_iff_forall_ne_some]
    intro q hsome
    obtain ⟨p, w, -, rfl⟩ := Cell.eq_fragments_of_pointer? hsome
    rw [Cell.length_fragments] at hlength
    refine hparts ⟨p, w, hlength.symm, fun i => ?_⟩
    rw [hcells i (by omega), Cell.getElem?_fragments]
  rw [Chunk.decode, hnumber, hpointer]
  exact ite_self _

end Memory

namespace MemorySession

/-- A pointer that is read back was stored as a whole. After any list of calls, failing ones
included:

* a load of a word yields a pointer if the access is possible and the last store that touched one of
  its bytes stored this pointer at this place;
* no other load yields a pointer;
* where an access is possible, a load of bytes that are neither all concrete nor the four parts of
  one pointer in order yields the undefined value. -/
theorem pointer_stored_whole (requests : List MemoryRequest) :
    (∀ b o p w, (after requests).mem.load .int32 b o = .ok (.ptr p w) ↔
      (∃ lo hi, (after requests).journal.Holds b lo hi ∧ Chunk.int32.FitsIn o lo hi) ∧
        (after requests).journal.lastTouching? b o (o + 4) =
          some (.stored .int32 b o (.ptr p w))) ∧
    (∀ c b o p w, c ≠ .int32 → (after requests).mem.load c b o ≠ .ok (.ptr p w)) ∧
    ∀ c b o, (∃ lo hi, (after requests).journal.Holds b lo hi ∧ c.FitsIn o lo hi) →
      (¬ ∀ i : Nat, i < c.size →
        ∃ byte, (after requests).mem.cell? b (o + i) = some (.byte byte)) →
      (¬ ∃ p w, c.size = 4 ∧
        ∀ i : Fin 4, (after requests).mem.cell? b (o + i.val) = some (.fragment p w i)) →
      (after requests).mem.load c b o = .ok .undefined := by
  have hagrees := agrees_after requests
  refine ⟨fun b o p w => ?_, fun c b o p w hc hload => hc (Memory.load_eq_ptr_iff.1 hload).1,
    fun c b o hfits hbytes hparts => ?_⟩
  · rw [hagrees.load_eq_ok_iff, ← MemoryJournal.lastWritten_eq_fragment_iff, eq_comm,
      Chunk.decode_eq_ptr_iff]
    refine and_congr_right fun _ => ?_
    rw [and_iff_right rfl, Chunk.size, Cell.map_range_eq_fragments_iff]
  · have hload := hagrees.load_eq_ok_iff.2 ⟨hfits, rfl⟩
    rw [hload, Memory.load_eq_undefined hload hbytes hparts]

end MemorySession

end RegisterMachine
