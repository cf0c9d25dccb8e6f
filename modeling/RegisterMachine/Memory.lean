import RegisterMachine.Memory.Region

/-! # Block memory

Memory is a set of separate blocks, each with bounds of its own fixed when it is allocated. Blocks
are numbered from one in the order of their allocation and a number is never used again, so a
pointer into a freed block stays dead.

* `Memory.alloc`, `Memory.free` — the life of a block.
* `Memory.load`, `Memory.store` — an access at a block and offset; `loadAt`, `storeAt` through a
  pointer.
* `Memory.region?`, `Memory.cell?` — what a block, and what a byte holds.
* `MemoryError` — why an operation on memory failed, and its text.
-/

namespace RegisterMachine

/-- Why an operation on memory failed. -/
inductive MemoryError where
  /-- The block was never allocated, or it has been freed. -/
  | invalidBlock (block : BlockId)
  /-- The access does not lie within the bounds of its block. -/
  | outOfBounds (chunk : Chunk) (block : BlockId) (offset lo hi : Int)
  /-- The offset of the access is not a multiple of its alignment. -/
  | misaligned (chunk : Chunk) (block : BlockId) (offset : Int)
  /-- An access through a value that is not a pointer. -/
  | notAPointer (address : Value)
  /-- A block freed with bounds that are not its own. -/
  | badFree (block : BlockId) (lo hi : Int)
  deriving DecidableEq, Repr

/-- The text of a memory error. -/
def MemoryError.message : MemoryError → String
  | .invalidBlock b => "block " ++ toString b ++ " is not allocated"
  | .outOfBounds c b offset lo hi =>
    c.label ++ " access at " ++ toString b ++ "+" ++ toString offset ++ " outside bounds [" ++
      toString lo ++ ", " ++ toString hi ++ ")"
  | .misaligned c b offset =>
    "misaligned " ++ c.label ++ " access at " ++ toString b ++ "+" ++ toString offset
  | .notAPointer v => "address " ++ v.toText ++ " is not a pointer"
  | .badFree b lo hi =>
    "cannot free block " ++ toString b ++ " with bounds [" ++ toString lo ++ ", " ++ toString hi ++
      ")"

/-- The state of memory. -/
structure Memory where
  /-- The region of each block, from block 1 on, and nothing for a freed one. -/
  regions : Array (Option Region)
  deriving DecidableEq

namespace Memory

/-- The memory in which nothing was ever allocated. -/
def empty : Memory := ⟨#[]⟩

/-- The number of the block that is allocated next. -/
def nextBlock (m : Memory) : BlockId := m.regions.size + 1

/-- The contents of a block, if it is live. -/
def region? (m : Memory) : BlockId → Option Region
  | 0 => none
  | n + 1 => m.regions[n]?.join

/-- Whether a block is live. -/
def isLive (m : Memory) (b : BlockId) : Bool := (m.region? b).isSome

/-- The bounds of a live block. -/
def bounds? (m : Memory) (b : BlockId) : Option (Int × Int) :=
  (m.region? b).map fun r => (r.lo, r.hi)

/-- The cell at an offset of a live block, within its bounds. -/
def cell? (m : Memory) (b : BlockId) (offset : Int) : Option Cell :=
  (m.region? b).bind fun r =>
    if r.lo ≤ offset ∧ offset < r.hi then some (r.cellAt offset) else none

/-- The memory in which the contents of a live block are changed or dropped. -/
def update (m : Memory) (b : BlockId) (f : Region → Option Region) : Memory :=
  match b with
  | 0 => m
  | n + 1 => ⟨m.regions.modify n fun r? => r?.bind f⟩

/-- Allocates a block with the given bounds. Bounds out of order make an empty block. -/
def alloc (m : Memory) (lo hi : Int) : BlockId × Memory :=
  (m.nextBlock, ⟨m.regions.push (some (Region.fresh lo hi))⟩)

/-- Frees a block, which must be named with its own bounds. -/
def free (m : Memory) (b : BlockId) (lo hi : Int) : Except MemoryError Memory :=
  match m.region? b with
  | none => .error (.invalidBlock b)
  | some r =>
    if r.lo = lo ∧ r.hi = max lo hi then .ok (m.update b fun _ => none)
    else .error (.badFree b lo hi)

/-- Why an access to a region is not possible, if it is not. The bounds are looked at first. -/
def accessError? (r : Region) (c : Chunk) (b : BlockId) (offset : Int) : Option MemoryError :=
  if ¬ r.Contains c offset then some (.outOfBounds c b offset r.lo r.hi)
  else if ¬ r.Admits c offset then some (.misaligned c b offset)
  else none

/-- The value that an access reads. -/
def load (m : Memory) (c : Chunk) (b : BlockId) (offset : Int) : Except MemoryError Value :=
  match m.region? b with
  | none => .error (.invalidBlock b)
  | some r =>
    match accessError? r c b offset with
    | some e => .error e
    | none => .ok (r.read c offset)

/-- The memory after an access wrote a value. -/
def store (m : Memory) (c : Chunk) (b : BlockId) (offset : Int) (v : Value) :
    Except MemoryError Memory :=
  match (m.region? b).map fun r => accessError? r c b offset with
  | none => .error (.invalidBlock b)
  | some (some e) => .error e
  | some none => .ok (m.update b fun r => some (r.write c offset v))

/-- The value that an access reads through a pointer. -/
def loadAt (m : Memory) (c : Chunk) : (address : Value) → Except MemoryError Value
  | .ptr b offset => m.load c b offset.toInt
  | v => .error (.notAPointer v)

/-- The memory after an access wrote a value through a pointer. -/
def storeAt (m : Memory) (c : Chunk) (address v : Value) : Except MemoryError Memory :=
  match address with
  | .ptr b offset => m.store c b offset.toInt v
  | a => .error (.notAPointer a)

/-! ## What an operation changes -/

@[simp] theorem region?_zero (m : Memory) : m.region? 0 = none := rfl

@[simp] theorem region?_empty (b : BlockId) : empty.region? b = none := by
  cases b <;> simp [region?, empty]

/-- An update changes the block that it names, and no other. -/
theorem region?_update (m : Memory) (b b' : BlockId) (f : Region → Option Region) :
    (m.update b f).region? b' = if b' = b then (m.region? b).bind f else m.region? b' := by
  cases b with
  | zero => cases b' <;> simp [update]
  | succ n =>
    cases b' with
    | zero => simp
    | succ n' =>
      simp only [update, region?, Array.getElem?_modify]
      by_cases h : n' = n
      · subst h
        cases hr : m.regions[n']? <;> simp
      · simp [h, Ne.symm h]

@[simp] theorem nextBlock_update (m : Memory) (b : BlockId) (f : Region → Option Region) :
    (m.update b f).nextBlock = m.nextBlock := by
  cases b <;> simp [update, nextBlock]

/-- An allocation adds one fresh block and changes no other. -/
theorem region?_alloc (m : Memory) (lo hi : Int) (b : BlockId) :
    (m.alloc lo hi).2.region? b =
      if b = m.nextBlock then some (Region.fresh lo hi) else m.region? b := by
  cases b with
  | zero => simp [nextBlock]
  | succ n =>
    simp only [alloc, region?, nextBlock, Array.getElem?_push]
    by_cases h : n = m.regions.size
    · simp [h]
    · simp [h]

@[simp] theorem nextBlock_alloc (m : Memory) (lo hi : Int) :
    (m.alloc lo hi).2.nextBlock = m.nextBlock + 1 := by
  simp [alloc, nextBlock]

@[simp] theorem fst_alloc (m : Memory) (lo hi : Int) : (m.alloc lo hi).1 = m.nextBlock := rfl

/-- Live blocks have numbers below the next one. -/
theorem lt_nextBlock_of_region? {m : Memory} {b : BlockId} {r : Region}
    (h : m.region? b = some r) : b < m.nextBlock := by
  cases b with
  | zero => simp at h
  | succ n =>
    simp only [region?, nextBlock] at *
    rcases Nat.lt_or_ge n m.regions.size with hn | hn
    · show n + 1 < m.regions.size + 1
      omega
    · simp [Array.getElem?_eq_none hn] at h

end Memory

end RegisterMachine
