import RegisterMachine.Proofs.Environment.Alignment

/-! # Programs that can be loaded

Four conditions on the globals of a program decide whether it is loaded, and none of them looks at
the memory into which it goes. Loading computes with offsets of any size, but those that it comes to
are small: the greatest size of a variable is asked for when blocks are allocated, so every offset
at which a block is filled then is a word, and so is every size that is added to one.

* `Program.Loadable` — the conditions.
* `Program.load_isOk_iff` — a program is loaded exactly if it meets them.
* `Program.exists_misaligned_of_load_memory` — memory refuses initial contents for their alignment
  only.
* `Program.loadInWords` — loading with offsets in words, which fails where one of them overflows.
* `Program.loadInWords_eq` — none ever does.
* `Program.loading_decided` — all of this for every program.
-/

namespace RegisterMachine

/-! ## Conditions on globals -/

/-- A program can be loaded: four conditions on its globals hold. -/
structure Program.Loadable (p : Program) : Prop where
  /-- Names of globals are distinct. -/
  nodup : (p.globals.map (·.1)).Nodup
  /-- Variables keep within the greatest size. -/
  size : ∀ name init, (name, .variable init) ∈ p.globals →
    InitialData.totalSize init ≤ maxVariableSize
  /-- Addresses are those of symbols that are declared. -/
  declared : ∀ name init symbol delta, (name, .variable init) ∈ p.globals →
    .address symbol delta ∈ init → symbol ∈ p.globals.map (·.1)
  /-- Each item lies at an offset, the sizes of the items before it, that is a multiple of its
  alignment. -/
  aligned : ∀ name before item after, (name, .variable (before ++ item :: after)) ∈ p.globals →
    InitialData.align item ∣ InitialData.totalSize before

/-- Items are aligned if each of them lies at an offset that is a multiple of its alignment. -/
theorem InitialData.aligned_iff {offset : Nat} {items : List InitialData} :
    Aligned offset items ↔
      ∀ before item after, items = before ++ item :: after →
        item.align ∣ offset + totalSize before := by
  induction items generalizing offset with
  | nil => simp [Aligned]
  | cons first items ih =>
    simp only [Aligned, ih, ← Nat.dvd_iff_mod_eq_zero]
    constructor
    · rintro ⟨hfirst, hrest⟩ before item after heq
      cases before with
      | nil =>
        cases heq
        exact hfirst
      | cons first' before =>
        cases heq
        have hitem := hrest before item after rfl
        rwa [Nat.add_assoc] at hitem
    · intro h
      refine ⟨h [] first items rfl, fun before item after heq => ?_⟩
      have hitem := h (first :: before) item after (by rw [heq]; rfl)
      rwa [totalSize, ← Nat.add_assoc] at hitem

namespace Program

variable {p : Program} {e : MemoryError}

/-- Blocks are allocated for a program with distinct names and no variable that is too large. -/
theorem allocate_isOk_iff :
    (∃ m, Environment.allocate .empty [] p.globals = .ok m) ↔
      (p.globals.map (·.1)).Nodup ∧ ∀ name init, (name, .variable init) ∈ p.globals →
        InitialData.totalSize init ≤ maxVariableSize := by
  rw [Environment.allocate_isOk_iff]
  refine and_congr (by simp) ⟨fun h name init hmem => ?_, fun h name g hmem => ?_⟩
  · obtain ⟨size, hsize⟩ := h name _ hmem
    simp only [Environment.blockSize] at hsize
    split at hsize
    · assumption
    · cases hsize
  · cases g with
    | function d => exact ⟨0, rfl⟩
    | «variable» init => exact ⟨_, by rw [Environment.blockSize, if_pos (h name init hmem)]⟩

/-- The symbols of initial contents have blocks if they are declared. -/
theorem isSome_symbol?_of_mention_iff :
    (∀ symbol, p.ContentsMention symbol → (p.environment.symbol? symbol).isSome = true) ↔
      ∀ name init symbol delta, (name, .variable init) ∈ p.globals →
        .address symbol delta ∈ init → symbol ∈ p.globals.map (·.1) := by
  have hsymbol : ∀ symbol, (p.environment.symbol? symbol).isSome = true ↔
      symbol ∈ p.globals.map (·.1) := by
    intro symbol
    rw [Environment.isSome_symbol?_iff]
    simp [environment]
  constructor
  · intro h name init symbol delta hmem haddress
    exact (hsymbol symbol).1 (h symbol ⟨name, init, delta, hmem, haddress⟩)
  · rintro h symbol ⟨name, init, delta, hmem, haddress⟩
    exact (hsymbol symbol).2 (h name init symbol delta hmem haddress)

/-- Initial contents are aligned if each item lies at a multiple of its alignment. -/
theorem contentsAligned_iff :
    p.ContentsAligned ↔
      ∀ name before item after, (name, .variable (before ++ item :: after)) ∈ p.globals →
        InitialData.align item ∣ InitialData.totalSize before := by
  simp only [ContentsAligned, InitialData.aligned_iff, Nat.zero_add]
  constructor
  · intro h name before item after hmem
    exact h name _ hmem before item after rfl
  · rintro h name init hmem before item after rfl
    exact h name before item after hmem

/-- A program is loaded exactly if it meets the conditions. -/
theorem load_isOk_iff : (∃ env mem, p.load = .ok (env, mem)) ↔ p.Loadable := by
  have hload : (∃ env mem, p.load = .ok (env, mem)) ↔
      ∃ m, Environment.allocate .empty [] p.globals = .ok m ∧
        ∃ mem, p.environment.fillVariables m 1 p.globals = .ok mem := by
    simp only [load_eq_ok_iff, exists_and_left, exists_eq_left]
    exact ⟨fun ⟨mem, m, hm, hfill⟩ => ⟨m, hm, mem, hfill⟩,
      fun ⟨m, hm, mem, hfill⟩ => ⟨mem, m, hm, hfill⟩⟩
  rw [hload]
  constructor
  · rintro ⟨m, hm, hfill⟩
    obtain ⟨hnodup, hsize⟩ := allocate_isOk_iff.1 ⟨m, hm⟩
    obtain ⟨haligned, hknown⟩ := (fill_result hm).isOk_iff_and.1 hfill
    exact ⟨hnodup, hsize, isSome_symbol?_of_mention_iff.1 hknown, contentsAligned_iff.1 haligned⟩
  · intro h
    obtain ⟨m, hm⟩ := allocate_isOk_iff.2 ⟨h.nodup, h.size⟩
    exact ⟨m, hm, (fill_result hm).isOk_iff_and.2 ⟨contentsAligned_iff.2 h.aligned,
      isSome_symbol?_of_mention_iff.2 h.declared⟩⟩

end Program

/-- Allocation does not fail for memory. -/
theorem Environment.allocate_ne_memory {m : Memory} {taken : List String}
    {gs : List (String × Global)} {e : MemoryError} : allocate m taken gs ≠ .error (.memory e) := by
  induction gs generalizing m taken with
  | nil =>
    intro h
    cases h
  | cons g gs ih =>
    intro h
    rw [allocate] at h
    split at h
    · cases h
    · split at h
      · rename_i e' hsize
        cases h
        cases hg : g.2 with
        | function d =>
          rw [hg] at hsize
          cases hsize
        | «variable» init =>
          rw [hg] at hsize
          simp only [blockSize] at hsize
          split at hsize <;> cases hsize
      · exact ih h

/-- Where memory refuses a program, it refuses an item for its alignment. -/
theorem Program.exists_misaligned_of_load_memory {p : Program} {e : MemoryError}
    (h : p.load = .error (.memory e)) : ∃ c b offset, e = .misaligned c b offset := by
  rcases load_eq_error_iff.1 h with he | ⟨m, hm, hfill⟩
  · exact absurd he Environment.allocate_ne_memory
  · have hresult := fill_result hm
    rw [hfill] at hresult
    exact hresult.exists_misaligned_of_memory

/-! ## Offsets in words -/

/-- Why loading with offsets in words fails. -/
inductive WordLoadError where
  /-- Loading fails with offsets of any size, too. -/
  | load (e : LoadError)
  /-- An offset or a size is no signed reading of a word. -/
  | overflow (n : Int)
  deriving DecidableEq, Repr

/-- The word whose signed reading is a number. -/
def WordLoadError.checkWord (n : Int) : Except WordLoadError Word :=
  match Word.ofInt? n with
  | some w => .ok w
  | none => .error (.overflow n)

namespace Environment

open WordLoadError

/-- Writes one value at an offset that is a word. -/
def storeInWords (m : Memory) (c : Chunk) (b : BlockId) (offset : Word) (v : Value) :
    Except WordLoadError Memory :=
  (m.store c b offset.toInt v).mapError fun e => .load (.memory e)

/-- Writes zero bytes at the indices from `i` on, counted from an offset. -/
def storeZerosInWords (m : Memory) (b : BlockId) (offset : Word) (i : Nat) :
    (count : Nat) → Except WordLoadError Memory
  | 0 => .ok m
  | count + 1 => do
    let place ← checkWord (offset.toInt + i)
    let m ← storeInWords m .int8Unsigned b place (.int 0#32)
    storeZerosInWords m b offset (i + 1) count

/-- Writes one item of initial contents. -/
def storeItemInWords (env : Environment) (m : Memory) (b : BlockId) (offset : Word) :
    InitialData → Except WordLoadError Memory
  | .int8 n => storeInWords m .int8Unsigned b offset (.int n)
  | .int16 n => storeInWords m .int16Unsigned b offset (.int n)
  | .int32 n => storeInWords m .int32 b offset (.int n)
  | .float32 x => storeInWords m .float32 b offset (.float x)
  | .float64 x => storeInWords m .float64 b offset (.float x)
  | .space count => do
    let last ← checkWord count.toNat
    storeZerosInWords m b offset 0 last.toNat
  | .address symbol delta =>
    match env.address? symbol delta with
    | some a => storeInWords m .int32 b offset a
    | none => .error (.load (.unknownSymbol symbol))

/-- Writes items of initial contents one after the other. The size of each is made a word and added
to its offset. -/
def storeItemsInWords (env : Environment) (m : Memory) (b : BlockId) (offset : Word) :
    List InitialData → Except WordLoadError Memory
  | [] => .ok m
  | item :: items => do
    let m ← env.storeItemInWords m b offset item
    let size ← checkWord item.size
    let next ← checkWord (offset.toInt + size.toInt)
    env.storeItemsInWords m b next items

/-- Writes the initial contents of the variables among globals, the first of which has block `b`. -/
def fillVariablesInWords (env : Environment) (m : Memory) (b : BlockId) :
    List (String × Global) → Except WordLoadError Memory
  | [] => .ok m
  | (_, .function _) :: rest => env.fillVariablesInWords m (b + 1) rest
  | (_, .variable init) :: rest => do
    let m ← env.storeItemsInWords m b 0#32 init
    env.fillVariablesInWords m (b + 1) rest

end Environment

/-- Loads a program with offsets in words. -/
def Program.loadInWords (p : Program) : Except WordLoadError (Environment × Memory) := do
  let m ← (Environment.allocate .empty [] p.globals).mapError .load
  let m ← p.environment.fillVariablesInWords m 1 p.globals
  return (p.environment, m)

/-- Numbers up to the greatest size of a variable are words. -/
theorem WordLoadError.exists_checkWord {n : Nat} (h : n ≤ maxVariableSize) :
    ∃ w : Word, checkWord n = .ok w ∧ w.toInt = n := by
  have hrange : -2147483648 ≤ (n : Int) ∧ (n : Int) ≤ 2147483647 := by
    rw [maxVariableSize] at h
    omega
  have hword : Word.ofInt? n = some (BitVec.ofInt 32 n) := by rw [Word.ofInt?, if_pos hrange]
  exact ⟨_, by rw [checkWord, hword], Word.toInt_of_ofInt? hword⟩

namespace Environment

open WordLoadError

variable {env : Environment} {m : Memory} {b : BlockId} {w : Word} {offset i count : Nat}

/-- Zero bytes within the greatest size of a variable are written at words. -/
theorem storeZerosInWords_eq (hw : w.toInt = offset) (h : offset + i + count ≤ maxVariableSize) :
    storeZerosInWords m b w i count =
      (storeZeros m b (offset + i) count).mapError fun e => .load (.memory e) := by
  induction count generalizing m i with
  | zero => rfl
  | succ count ih =>
    -- The first of the bytes lies at a word, so its check passes.
    obtain ⟨place, hplace, hint⟩ := exists_checkWord (n := offset + i) (by omega)
    rw [storeZeros_succ, mapError_bind, storeZerosInWords, hw, ← Int.natCast_add, hplace]
    change (storeInWords m .int8Unsigned b place (.int 0#32) >>= fun m₁ =>
      storeZerosInWords m₁ b w (i + 1) count) = _
    rw [storeInWords, hint]
    congr
    funext m₁
    exact ih (by omega)

/-- An item within the greatest size of a variable is written at a word. -/
theorem storeItemInWords_eq {item : InitialData} (hw : w.toInt = offset)
    (h : offset + item.size ≤ maxVariableSize) :
    env.storeItemInWords m b w item = (env.storeItem m b offset item).mapError .load := by
  cases item with
  | space count =>
    rw [InitialData.size] at h
    -- The count is not negative as a signed word, since the item would be too large.
    obtain ⟨last, hlast, hint⟩ := exists_checkWord (n := count.toNat) (by omega)
    have hcount : last.toNat = count.toNat := by
      rw [BitVec.toInt_eq_toNat_cond] at hint
      omega
    rw [storeItemInWords, hlast, storeItem, mapError_mapError]
    change storeZerosInWords m b w 0 last.toNat = _
    rw [hcount, storeZerosInWords_eq hw (by omega)]
    rfl
  | address symbol delta =>
    rw [storeItemInWords, storeItem]
    cases env.address? symbol delta with
    | none => rfl
    | some a =>
      simp only [storeInWords, hw, mapError_mapError]
      rfl
  | _ =>
    simp only [storeItemInWords, storeItem, storeInWords, hw, mapError_mapError]
    rfl

/-- Items within the greatest size of a variable are written at words. -/
theorem storeItemsInWords_eq {items : List InitialData} (hw : w.toInt = offset)
    (h : offset + InitialData.totalSize items ≤ maxVariableSize) :
    env.storeItemsInWords m b w items = (env.storeItems m b offset items).mapError .load := by
  induction items generalizing m w offset with
  | nil => rfl
  | cons item items ih =>
    rw [InitialData.totalSize] at h
    obtain ⟨size, hsize, hsizeInt⟩ := exists_checkWord (n := item.size) (by omega)
    obtain ⟨next, hnext, hnextInt⟩ := exists_checkWord (n := offset + item.size) (by omega)
    rw [storeItems_cons, mapError_bind, storeItemsInWords, storeItemInWords_eq hw (by omega)]
    congr
    funext m₁
    rw [hsize]
    change (checkWord (w.toInt + size.toInt) >>= fun next =>
      env.storeItemsInWords m₁ b next items) = _
    rw [hw, hsizeInt, ← Int.natCast_add, hnext]
    exact ih hnextInt (by omega)

/-- Variables that keep within the greatest size are filled at words. -/
theorem fillVariablesInWords_eq {gs : List (String × Global)}
    (h : ∀ name init, (name, .variable init) ∈ gs →
      InitialData.totalSize init ≤ maxVariableSize) :
    env.fillVariablesInWords m b gs = (env.fillVariables m b gs).mapError .load := by
  induction gs generalizing m b with
  | nil => rfl
  | cons g gs ih =>
    obtain ⟨name, g⟩ := g
    have hrest := fun name init hmem => h name init (List.mem_cons_of_mem _ hmem)
    cases g with
    | function d => exact ih hrest
    | «variable» init =>
      have hsize := h name init (List.mem_cons_self ..)
      have hzero : (0#32 : Word).toInt = (0 : Nat) := BitVec.toInt_zero
      rw [fillVariables_cons, mapError_bind, fillVariablesInWords, fillBlock,
        storeItemsInWords_eq hzero (by omega)]
      congr
      funext m₁
      exact ih hrest

end Environment

namespace Program

/-- With offsets in words a program is loaded as with offsets of any size: none overflows. -/
theorem loadInWords_eq (p : Program) : p.loadInWords = p.load.mapError .load := by
  rw [load_eq_bind, mapError_bind, loadInWords]
  cases hm : Environment.allocate .empty [] p.globals with
  | error e => rfl
  | ok m =>
    change (p.environment.fillVariablesInWords m 1 p.globals >>= fun m => pure (p.environment, m)) =
      ((p.environment.fillVariables m 1 p.globals).map _).mapError _
    rw [Environment.fillVariablesInWords_eq (allocate_isOk_iff.1 ⟨m, hm⟩).2]
    cases p.environment.fillVariables m 1 p.globals <;> rfl

/-- What decides whether a program is loaded. Of every program it is known that

* it is loaded exactly if names are distinct, variables keep within the greatest size, addresses are
  those of declared symbols and each item lies at a multiple of its alignment;
* if memory refuses it then an item for its alignment, and not for a block or its bounds;
* no offset and no size that is added to one overflows a word: with offsets in words loading has the
  same result. -/
theorem loading_decided (p : Program) :
    ((∃ env mem, p.load = .ok (env, mem)) ↔ p.Loadable) ∧
    (∀ e, p.load = .error (.memory e) → ∃ c b offset, e = .misaligned c b offset) ∧
    p.loadInWords = p.load.mapError .load :=
  ⟨load_isOk_iff, fun _ => exists_misaligned_of_load_memory, p.loadInWords_eq⟩

/-- A count of zero bytes that is negative as a signed word makes a variable too large, whatever
follows. -/
example : (⟨[("a", .variable [.int8 0, .space 0xFFFFFFFF, .int32 0])], "a"⟩ : Program).loadInWords =
    .error (.load (.variableTooLarge "a" 4294967300)) := rfl

end Program

end RegisterMachine
