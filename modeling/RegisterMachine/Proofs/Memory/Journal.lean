import RegisterMachine.Proofs.Memory.Bytes

/-! # The journal of memory

What memory answers to an access is fixed by the calls that have changed it so far. A session keeps
a journal of these calls: which blocks they allocated and freed, and what they stored. Memory agrees
with its journal after every sequence of calls, whether they succeeded or not.

* `MemoryRequest`, `MemoryChange` — a call, and a call that succeeded.
* `MemorySession.after` — the memory and the journal after a list of calls.
* `MemoryJournal.Holds` — a block was allocated between bounds and has not been freed.
* `MemoryJournal.lastWritten` — the cell that was written last at an offset of a block.
* `MemorySession.agrees_after` — memory agrees with its journal after every list of calls.
* `MemorySession.last_writer` — what the operations answer, said of the journal alone.
-/

namespace RegisterMachine

/-! ## Calls and changes -/

/-- A call of an operation that may change memory. -/
inductive MemoryRequest where
  /-- Allocates a block with the given bounds. -/
  | alloc (lo hi : Int)
  /-- Frees a block, named with its bounds. -/
  | free (b : BlockId) (lo hi : Int)
  /-- Writes a value at an offset of a block. -/
  | store (c : Chunk) (b : BlockId) (offset : Int) (v : Value)
  deriving DecidableEq, Repr

/-- A call that has changed memory. -/
inductive MemoryChange where
  /-- A block was allocated with the given bounds. -/
  | allocated (b : BlockId) (lo hi : Int)
  /-- A block was freed. -/
  | freed (b : BlockId)
  /-- A value was written at an offset of a block. -/
  | stored (c : Chunk) (b : BlockId) (offset : Int) (v : Value)
  deriving DecidableEq, Repr

namespace MemoryChange

/-- The block that a change is about. -/
def block : MemoryChange → BlockId
  | .allocated b _ _ => b
  | .freed b => b
  | .stored _ b _ _ => b

/-- The block that a change has allocated. -/
def allocated? : MemoryChange → Option BlockId
  | .allocated b _ _ => some b
  | _ => none

/-- The cell that a change has written at an offset of a block. -/
def written? (b : BlockId) (x : Int) : MemoryChange → Option Cell
  | .stored c b' offset v =>
    if b = b' ∧ offset ≤ x ∧ x < offset + c.size then (c.encode v)[(x - offset).toNat]? else none
  | _ => none

end MemoryChange

/-- What a call does to memory, if it succeeds. -/
def Memory.respond (m : Memory) : MemoryRequest → Except MemoryError (MemoryChange × Memory)
  | .alloc lo hi => .ok (.allocated (m.alloc lo hi).1 lo hi, (m.alloc lo hi).2)
  | .free b lo hi => (m.free b lo hi).map fun m' => (.freed b, m')
  | .store c b offset v => (m.store c b offset v).map fun m' => (.stored c b offset v, m')

/-- The changes of a memory, the latest first. -/
abbrev MemoryJournal := List MemoryChange

/-- A memory and the journal of its changes. -/
structure MemorySession where
  /-- The memory. -/
  mem : Memory
  /-- Its changes. -/
  journal : MemoryJournal

namespace MemorySession

/-- The session before any call. -/
def empty : MemorySession := ⟨.empty, []⟩

/-- The session after a call. A call that fails leaves no trace. -/
def perform (s : MemorySession) (request : MemoryRequest) : MemorySession :=
  match s.mem.respond request with
  | .ok (change, mem) => ⟨mem, change :: s.journal⟩
  | .error _ => s

/-- The session after a list of calls, performed one after the other. -/
def after (requests : List MemoryRequest) : MemorySession := requests.foldl perform empty

theorem after_append (requests more : List MemoryRequest) :
    after (requests ++ more) = more.foldl perform (after requests) :=
  List.foldl_append

end MemorySession

/-! ## What a journal says -/

namespace MemoryJournal

/-- The blocks that were allocated, in the order of their allocation. -/
def allocations (j : MemoryJournal) : List BlockId := (j.filterMap MemoryChange.allocated?).reverse

/-- A block was allocated between bounds, the upper one raised to the lower one, and has not been
freed. -/
def Holds (j : MemoryJournal) (b : BlockId) (lo hi : Int) : Prop :=
  (∃ hi', .allocated b lo hi' ∈ j ∧ hi = max lo hi') ∧ .freed b ∉ j

/-- The cell that was written last at an offset of a block; nothing is known if there is none. -/
def lastWritten (j : MemoryJournal) (b : BlockId) (x : Int) : Cell :=
  (j.findSome? (MemoryChange.written? b x)).getD .undefined

variable {j : MemoryJournal} {b b' : BlockId} {c : Chunk} {lo hi lo' hi' offset x : Int} {v : Value}

/-- A block has been allocated if the journal says between which bounds. -/
theorem mem_allocations_iff : b ∈ j.allocations ↔ ∃ lo hi, .allocated b lo hi ∈ j := by
  rw [allocations, List.mem_reverse, List.mem_filterMap]
  constructor
  · rintro ⟨change, hmem, hb⟩
    cases change with
    | allocated b' lo hi =>
      cases hb
      exact ⟨lo, hi, hmem⟩
    | freed b' => cases hb
    | stored c b' offset v => cases hb
  · rintro ⟨lo, hi, hmem⟩
    exact ⟨_, hmem, rfl⟩

/-- A block that has been allocated and not freed lies between some bounds. -/
theorem exists_holds_iff :
    (∃ lo hi, j.Holds b lo hi) ↔ b ∈ j.allocations ∧ .freed b ∉ j := by
  rw [mem_allocations_iff]
  constructor
  · rintro ⟨lo, hi, ⟨hi', hmem, -⟩, hfree⟩
    exact ⟨⟨lo, hi', hmem⟩, hfree⟩
  · rintro ⟨⟨lo, hi, hmem⟩, hfree⟩
    exact ⟨lo, _, ⟨hi, hmem, rfl⟩, hfree⟩

/-- Nothing has been written to a block that no change is about. -/
theorem lastWritten_of_fresh (hfresh : ∀ change ∈ j, change.block ≠ b) :
    j.lastWritten b x = .undefined := by
  have hnone : j.findSome? (MemoryChange.written? b x) = none := by
    rw [List.findSome?_eq_none_iff]
    intro change hmem
    cases change with
    | allocated b' lo hi => rfl
    | freed b' => rfl
    | stored c b' offset v =>
      have hne : b ≠ b' := fun h => hfresh _ hmem h.symm
      simp [MemoryChange.written?, hne]
  rw [lastWritten, hnone, Option.getD_none]

/-- After the allocation of a block that no change is about, that block lies between the given
bounds, and all others lie where they were. -/
theorem holds_allocated_iff (hfresh : ∀ change ∈ j, change.block ≠ b) :
    Holds (.allocated b lo hi :: j) b' lo' hi' ↔
      if b' = b then lo' = lo ∧ hi' = max lo hi else j.Holds b' lo' hi' := by
  by_cases hb : b' = b
  · subst hb
    have hfreed : .freed b' ∉ j := fun hmem => hfresh _ hmem rfl
    have hallocated : ∀ lo hi, .allocated b' lo hi ∉ j := fun _ _ hmem => hfresh _ hmem rfl
    rw [if_pos rfl]
    constructor
    · rintro ⟨⟨hi'', hmem, hhi⟩, -⟩
      rcases List.mem_cons.1 hmem with heq | hmem
      · cases heq
        exact ⟨rfl, hhi⟩
      · exact absurd hmem (hallocated _ _)
    · rintro ⟨rfl, rfl⟩
      exact ⟨⟨hi, by simp, rfl⟩, by simp [hfreed]⟩
  · rw [if_neg hb]
    simp [Holds, hb]

/-- After a block has been freed it lies nowhere, and all others lie where they were. -/
theorem holds_freed_iff : Holds (.freed b :: j) b' lo hi ↔ b' ≠ b ∧ j.Holds b' lo hi := by
  simp only [Holds, List.mem_cons, reduceCtorEq, false_or, MemoryChange.freed.injEq, not_or]
  constructor
  · rintro ⟨hbounds, hne, hfree⟩
    exact ⟨hne, hbounds, hfree⟩
  · rintro ⟨hne, hbounds, hfree⟩
    exact ⟨hbounds, hne, hfree⟩

/-- A store moves no block. -/
theorem holds_stored_iff : Holds (.stored c b offset v :: j) b' lo hi ↔ j.Holds b' lo hi := by
  simp [Holds]

/-- An allocation writes nothing. -/
theorem lastWritten_allocated :
    lastWritten (.allocated b lo hi :: j) b' x = j.lastWritten b' x := rfl

/-- Freeing a block writes nothing. -/
theorem lastWritten_freed : lastWritten (.freed b :: j) b' x = j.lastWritten b' x := rfl

/-- A store writes the encoded value where its access is. -/
theorem some_lastWritten_stored :
    some (lastWritten (.stored c b offset v :: j) b' x) =
      if b' = b ∧ offset ≤ x ∧ x < offset + c.size then (c.encode v)[(x - offset).toNat]?
      else some (j.lastWritten b' x) := by
  rw [lastWritten, List.findSome?_cons, MemoryChange.written?]
  by_cases hin : b' = b ∧ offset ≤ x ∧ x < offset + c.size
  · have hlt : (x - offset).toNat < (c.encode v).length := by
      rw [Chunk.length_encode]
      omega
    rw [if_pos hin, if_pos hin, List.getElem?_eq_getElem hlt, Option.getD_some]
  · rw [if_neg hin, if_neg hin, lastWritten]

end MemoryJournal

/-! ## Agreement -/

/-- A memory agrees with a journal: blocks are numbered as they were allocated, lie between the
bounds with which they were allocated, and hold what was written to them last. -/
structure MemoryJournal.Agrees (j : MemoryJournal) (m : Memory) : Prop where
  /-- Blocks have been numbered from one, in the order of their allocation. -/
  allocations : j.allocations = List.range' 1 j.allocations.length
  /-- The next block has the number after these. -/
  nextBlock : m.nextBlock = j.allocations.length + 1
  /-- Only allocated blocks have been changed. -/
  block_lt : ∀ change ∈ j, change.block < m.nextBlock
  /-- The live blocks are those that were allocated and not freed. -/
  bounds : ∀ b lo hi, m.bounds? b = some (lo, hi) ↔ j.Holds b lo hi
  /-- Every byte holds what was written to it last. -/
  cells : ∀ b x, (m.cell? b x).isSome = true → m.cell? b x = some (j.lastWritten b x)

namespace MemoryJournal.Agrees

variable {j : MemoryJournal} {m m' : Memory} {b : BlockId} {c : Chunk} {lo hi offset : Int}
  {v : Value}

/-- Nothing has happened to an empty memory. -/
theorem empty : Agrees [] .empty := by
  refine ⟨rfl, rfl, by simp, fun b lo hi => ?_, fun b x hcell => ?_⟩
  · simp [Memory.bounds?, Holds]
  · simp [Memory.cell?] at hcell

/-- No change is about the next block. -/
theorem fresh (h : j.Agrees m) : ∀ change ∈ j, change.block ≠ m.nextBlock :=
  fun change hmem => Nat.ne_of_lt (h.block_lt change hmem)

/-- An allocation is entered into the journal. -/
theorem alloc (h : j.Agrees m) (lo hi : Int) :
    Agrees (.allocated m.nextBlock lo hi :: j) (m.alloc lo hi).2 := by
  have hallocations : MemoryJournal.allocations (.allocated m.nextBlock lo hi :: j) =
      j.allocations ++ [m.nextBlock] := by
    simp [MemoryJournal.allocations, MemoryChange.allocated?]
  refine ⟨?_, ?_, fun change hmem => ?_, fun b lo' hi' => ?_, fun b x hcell => ?_⟩
  · rw [hallocations, List.length_append, List.length_singleton, List.range'_1_concat,
      ← h.allocations, h.nextBlock, Nat.add_comm 1]
  · rw [hallocations, Memory.nextBlock_alloc, h.nextBlock, List.length_append,
      List.length_singleton]
  · rw [Memory.nextBlock_alloc]
    rcases List.mem_cons.1 hmem with rfl | hmem
    · exact Nat.lt_succ_self _
    · exact Nat.lt_succ_of_lt (h.block_lt change hmem)
  · rw [Memory.bounds?_alloc, holds_allocated_iff h.fresh]
    by_cases hb : b = m.nextBlock
    · rw [if_pos hb, if_pos hb, Option.some.injEq, Prod.mk.injEq, eq_comm, @eq_comm _ _ hi']
    · rw [if_neg hb, if_neg hb]
      exact h.bounds b lo' hi'
  · rw [lastWritten_allocated]
    rw [Memory.cell?_alloc] at hcell ⊢
    by_cases hb : b = m.nextBlock
    · -- Nothing has been written to the new block.
      subst hb
      rw [if_pos rfl] at hcell ⊢
      split at hcell
      · rename_i hin
        rw [if_pos hin, lastWritten_of_fresh h.fresh]
      · cases hcell
    · rw [if_neg hb] at hcell ⊢
      exact h.cells b x hcell

/-- A block that is freed is entered into the journal. -/
theorem free (h : j.Agrees m) (hfree : m.free b lo hi = .ok m') : Agrees (.freed b :: j) m' := by
  have hlt : b < m.nextBlock :=
    Memory.lt_nextBlock_of_isLive (by
      rw [Memory.isLive_eq_isSome_bounds?, (Memory.free_eq_ok_iff.1 hfree).1]
      rfl)
  refine ⟨h.allocations, ?_, fun change hmem => ?_, fun b' lo' hi' => ?_, fun b' x hcell => ?_⟩
  · rw [Memory.nextBlock_of_free hfree]
    exact h.nextBlock
  · rw [Memory.nextBlock_of_free hfree]
    rcases List.mem_cons.1 hmem with rfl | hmem
    · exact hlt
    · exact h.block_lt change hmem
  · rw [Memory.bounds?_of_free hfree, holds_freed_iff, ← h.bounds]
    by_cases hb : b' = b <;> simp [hb]
  · rw [lastWritten_freed]
    rw [Memory.cell?_of_free hfree] at hcell ⊢
    split at hcell
    · cases hcell
    · rename_i hb
      rw [if_neg hb]
      exact h.cells b' x hcell

/-- A store is entered into the journal. -/
theorem store (h : j.Agrees m) (hstore : m.store c b offset v = .ok m') :
    Agrees (.stored c b offset v :: j) m' := by
  have hsame := Memory.SameBounds.of_store hstore
  obtain ⟨r, hr, -, -⟩ := Memory.store_eq_ok_iff.1 hstore
  refine ⟨h.allocations, ?_, fun change hmem => ?_, fun b' lo' hi' => ?_, fun b' x hcell => ?_⟩
  · rw [hsame.nextBlock]
    exact h.nextBlock
  · rw [hsame.nextBlock]
    rcases List.mem_cons.1 hmem with rfl | hmem
    · exact Memory.lt_nextBlock_of_region? hr
    · exact h.block_lt change hmem
  · rw [hsame.bounds, holds_stored_iff]
    exact h.bounds b' lo' hi'
  · rw [some_lastWritten_stored]
    rw [Memory.cell?_of_store hstore] at hcell ⊢
    by_cases hin : b' = b ∧ offset ≤ x ∧ x < offset + c.size
    · rw [if_pos hin, if_pos hin]
    · rw [if_neg hin] at hcell ⊢
      rw [if_neg hin]
      exact h.cells b' x hcell

/-- A load decodes what was written last to the bytes that it reads. -/
theorem load_eq_ok_iff (h : j.Agrees m) :
    m.load c b offset = .ok v ↔
      (∃ lo hi, j.Holds b lo hi ∧ c.FitsIn offset lo hi) ∧
        v = c.decode ((List.range c.size).map fun i : Nat => j.lastWritten b (offset + i)) := by
  -- Where a load succeeds, its value is the one that the journal says.
  have hvalue : ∀ w, m.load c b offset = .ok w →
      w = c.decode ((List.range c.size).map fun i : Nat => j.lastWritten b (offset + i)) := by
    intro w hw
    obtain ⟨-, cells, hlength, hcells, rfl⟩ := Memory.load_eq_ok_iff_cells.1 hw
    congr 1
    apply List.ext_getElem?
    intro i
    by_cases hi : i < c.size
    · have hsome : (m.cell? b (offset + i)).isSome = true := by
        rw [hcells i hi, List.getElem?_eq_getElem (by omega)]
        rfl
      rw [← hcells i hi, h.cells _ _ hsome]
      simp [hi]
    · rw [List.getElem?_eq_none (by omega), List.getElem?_eq_none (by simp; omega)]
  have hsuccess : (∃ w, m.load c b offset = .ok w) ↔
      ∃ lo hi, j.Holds b lo hi ∧ c.FitsIn offset lo hi := by
    rw [Memory.load_isOk_iff]
    simp only [h.bounds]
  constructor
  · intro hload
    exact ⟨hsuccess.1 ⟨v, hload⟩, hvalue v hload⟩
  · rintro ⟨hfit, hv⟩
    obtain ⟨w, hw⟩ := hsuccess.2 hfit
    rw [hw, hvalue w hw, hv]

end MemoryJournal.Agrees

namespace MemorySession

variable {s : MemorySession}

/-- Every call keeps memory and journal in agreement. -/
theorem agrees_perform (h : s.journal.Agrees s.mem) (request : MemoryRequest) :
    (s.perform request).journal.Agrees (s.perform request).mem := by
  unfold perform
  cases request with
  | alloc lo hi => exact h.alloc lo hi
  | free b lo hi =>
    cases hfree : s.mem.free b lo hi with
    | ok m' =>
      simp only [Memory.respond, hfree, Except.map]
      exact h.free hfree
    | error e =>
      simp only [Memory.respond, hfree, Except.map]
      exact h
  | store c b offset v =>
    cases hstore : s.mem.store c b offset v with
    | ok m' =>
      simp only [Memory.respond, hstore, Except.map]
      exact h.store hstore
    | error e =>
      simp only [Memory.respond, hstore, Except.map]
      exact h

/-- Memory agrees with its journal after every list of calls. -/
theorem agrees_after (requests : List MemoryRequest) :
    (after requests).journal.Agrees (after requests).mem :=
  List.foldlRecOn requests perform (motive := fun s => s.journal.Agrees s.mem)
    MemoryJournal.Agrees.empty fun _ h request _ => agrees_perform h request

/-- A call adds to the journal and removes nothing. -/
theorem journal_subset_perform (s : MemorySession) (request : MemoryRequest) :
    s.journal ⊆ (s.perform request).journal := by
  unfold perform
  split
  · exact List.subset_cons_self _ _
  · exact List.Subset.refl _

/-- What stands in the journal stays there. -/
theorem journal_subset_after_append (requests more : List MemoryRequest) :
    (after requests).journal ⊆ (after (requests ++ more)).journal := by
  rw [after_append]
  exact List.foldlRecOn more perform (motive := fun s => (after requests).journal ⊆ s.journal)
    (List.Subset.refl _) fun s h request _ => List.Subset.trans h (journal_subset_perform s request)

/-- Memory is a map from bytes to what was written to them last. After any list of calls, failing
ones included:

* blocks have been numbered 1, 2, 3 and so on, and the next allocation goes on from there;
* the live blocks are those that were allocated and not freed, and a block that was freed is not
  live after any further calls;
* a block can be freed if it was allocated with the given bounds and has not been freed;
* a value can be stored where an aligned access lies within such bounds, and loaded there too, and
  what is loaded decodes the cells that were written last to the bytes of the access;
* a call that fails changes nothing;
* an access that passes the check concerns cells that exist. -/
theorem last_writer (requests : List MemoryRequest) :
    (after requests).journal.allocations =
      List.range' 1 (after requests).journal.allocations.length ∧
    (∀ lo hi, ((after requests).mem.alloc lo hi).1 =
      (after requests).journal.allocations.length + 1) ∧
    (∀ b, (after requests).mem.isLive b = true ↔
      b ∈ (after requests).journal.allocations ∧ .freed b ∉ (after requests).journal) ∧
    (∀ b more, .freed b ∈ (after requests).journal →
      (after (requests ++ more)).mem.isLive b = false) ∧
    (∀ b lo hi, (∃ m', (after requests).mem.free b lo hi = .ok m') ↔
      (after requests).journal.Holds b lo (max lo hi)) ∧
    (∀ c b offset v, (∃ m', (after requests).mem.store c b offset v = .ok m') ↔
      ∃ lo hi, (after requests).journal.Holds b lo hi ∧ c.FitsIn offset lo hi) ∧
    (∀ c b offset v, (after requests).mem.load c b offset = .ok v ↔
      (∃ lo hi, (after requests).journal.Holds b lo hi ∧ c.FitsIn offset lo hi) ∧
        v = c.decode ((List.range c.size).map fun i : Nat =>
          (after requests).journal.lastWritten b (offset + i))) ∧
    (∀ request e, (after requests).mem.respond request = .error e →
      after (requests ++ [request]) = after requests) ∧
    ∀ c b offset r, (after requests).mem.region? b = some r →
      Memory.accessError? r c b offset = none →
        ((offset - r.lo).toNat : Int) = offset - r.lo ∧
          (offset - r.lo).toNat + c.size ≤ r.cells.size := by
  have h := agrees_after requests
  have hlive : ∀ requests b, (after requests).mem.isLive b = true ↔
      b ∈ (after requests).journal.allocations ∧ .freed b ∉ (after requests).journal := by
    intro requests b
    rw [← MemoryJournal.exists_holds_iff, Memory.isLive_eq_isSome_bounds?,
      Option.isSome_iff_exists, Prod.exists]
    simp only [(agrees_after requests).bounds]
  refine ⟨h.allocations, fun _ _ => h.nextBlock, hlive requests, ?_, ?_, ?_,
    fun _ _ _ _ => h.load_eq_ok_iff, ?_, ?_⟩
  · intro b more hfreed
    rw [Bool.eq_false_iff]
    intro hb
    exact ((hlive _ b).1 hb).2 (journal_subset_after_append requests more hfreed)
  · intro b lo hi
    rw [← h.bounds]
    exact ⟨fun ⟨_, hfree⟩ => (Memory.free_eq_ok_iff.1 hfree).1,
      fun hbounds => ⟨_, Memory.free_eq_ok_iff.2 ⟨hbounds, rfl⟩⟩⟩
  · intro c b offset v
    rw [Memory.store_isOk_iff]
    simp only [h.bounds]
  · intro request e herror
    rw [after_append, List.foldl_cons, List.foldl_nil, perform, herror]
  · intro c b offset r _ hcheck
    exact (Memory.accessError?_eq_none_iff.1 hcheck).index_add_size_le

end MemorySession

end RegisterMachine
