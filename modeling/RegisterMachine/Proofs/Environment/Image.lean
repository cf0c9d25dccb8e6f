import RegisterMachine.Proofs.Environment.Loadable
import RegisterMachine.Proofs.Memory.Bytes
import RegisterMachine.Proofs.Renaming.Loading

/-! # The initial image of memory

The globals of a loaded program are numbered from one. The block of a variable holds the cells of
its initial contents one after the other and nothing else, so every item reads back from its place,
whatever stands before and behind it.

* `InitialData.cells`, `InitialData.image` — the cells of an item, and of the contents of a variable.
* `InitialData.readings` — the accesses that read an item, and what they read.
* `Environment.writes_of_storeItem`, `Environment.writes_of_storeItems` — storing initial contents
  writes their cells.
* `Environment.Numbering` — names of globals and numbers of blocks.
* `Environment.Holds` — a block holds initial contents.
* `Program.initial_image` — both, for every program that is loaded.
-/

namespace RegisterMachine

/-! ## Cells of initial contents -/

namespace InitialData

/-- The cells that an item fills: the bytes of a number from the lowest one up, zero bytes, or the
parts of a pointer into the block of a symbol. -/
def cells (env : Environment) : InitialData → List Cell
  | .int8 n => (Bytes.ofNat 1 n.toNat).map .byte
  | .int16 n => (Bytes.ofNat 2 n.toNat).map .byte
  | .int32 n => (Bytes.ofNat 4 n.toNat).map .byte
  | .float32 x => (Bytes.ofNat 4 x.toSingle.toNat).map .byte
  | .float64 x => (Bytes.ofNat 8 x.bits.toNat).map .byte
  | .space count => List.replicate count.toNat (.byte 0#8)
  | .address symbol delta =>
    match env.symbol? symbol with
    | some b => Cell.fragments b delta
    | none => []

/-- The cells of items, one after the other. -/
def image (env : Environment) (items : List InitialData) : List Cell := items.flatMap (cells env)

/-- An access to an item, and what it reads. -/
structure Reading where
  /-- The place of the access in the item. -/
  index : Nat
  /-- The chunk that is read. -/
  chunk : Chunk
  /-- The value that is read. -/
  value : Value

/-- The accesses that read an item: one for the whole item, or one for each of several zero bytes.
Integers are cut to their width and read without sign, and a double that is rounded to single
precision is read as rounded. -/
def readings (env : Environment) : InitialData → List Reading
  | .int8 n => [⟨0, .int8Unsigned, .int ((n.setWidth 8).setWidth 32)⟩]
  | .int16 n => [⟨0, .int16Unsigned, .int ((n.setWidth 16).setWidth 32)⟩]
  | .int32 n => [⟨0, .int32, .int n⟩]
  | .float32 x => [⟨0, .float32, .float (.ofSingle x.toSingle)⟩]
  | .float64 x => [⟨0, .float64, .float x⟩]
  | .space count => (List.range count.toNat).map fun i => ⟨i, .int8Unsigned, .int 0#32⟩
  | .address symbol delta =>
    match env.symbol? symbol with
    | some b => [⟨0, .int32, .ptr b delta⟩]
    | none => []

variable {env : Environment} {item : InitialData} {items before after : List InitialData}
  {r : Reading}

/-- The cells of the first item stand before those of the others. -/
theorem image_cons (item : InitialData) (items : List InitialData) :
    image env (item :: items) = item.cells env ++ image env items :=
  List.flatMap_cons

/-- The cells of items stand before those of the items behind them. -/
theorem image_append (before items : List InitialData) :
    image env (before ++ items) = image env before ++ image env items :=
  List.flatMap_append

/-- An item has as many cells as bytes, if its symbol has a block. -/
theorem length_cells (known : ∀ symbol delta, item = .address symbol delta →
    (env.symbol? symbol).isSome = true) : (item.cells env).length = item.size := by
  cases item with
  | address symbol delta =>
    obtain ⟨b, hb⟩ := Option.isSome_iff_exists.1 (known symbol delta rfl)
    simp only [cells, hb, Cell.length_fragments, size]
  | _ => simp [cells, size]

/-- Items have as many cells as bytes, if their symbols have blocks. -/
theorem length_image (known : ∀ symbol delta, .address symbol delta ∈ items →
    (env.symbol? symbol).isSome = true) : (image env items).length = totalSize items := by
  induction items with
  | nil => rfl
  | cons item items ih =>
    have hitem : (item.cells env).length = item.size :=
      length_cells fun symbol delta heq => known symbol delta (heq ▸ List.mem_cons_self ..)
    have hrest := ih fun symbol delta hmem => known symbol delta (List.mem_cons_of_mem _ hmem)
    rw [image_cons, List.length_append, hitem, hrest, totalSize]

/-- Something is known of every cell of an item. -/
theorem undefined_not_mem_cells : Cell.undefined ∉ item.cells env := by
  cases item with
  | address symbol delta =>
    rw [cells]
    cases env.symbol? symbol with
    | none => simp
    | some b => simp [Cell.fragments]
  | _ => simp [cells]

/-- Something is known of every cell of a variable. -/
theorem undefined_not_mem_image : Cell.undefined ∉ image env items := by
  rw [image, List.mem_flatMap]
  rintro ⟨item, -, hmem⟩
  exact undefined_not_mem_cells hmem

/-- An access that reads an item is aligned wherever the item is. -/
theorem align_of_mem_readings (h : r ∈ item.readings env) :
    r.chunk.align = item.align ∧ r.chunk.align ∣ r.index := by
  cases item with
  | space count =>
    obtain ⟨i, -, rfl⟩ := List.mem_map.1 h
    exact ⟨rfl, Nat.one_dvd i⟩
  | address symbol delta =>
    rw [readings] at h
    cases hsymbol : env.symbol? symbol with
    | none => simp [hsymbol] at h
    | some b =>
      simp only [hsymbol, List.mem_singleton] at h
      subst h
      exact ⟨rfl, Nat.dvd_zero _⟩
  | _ =>
    obtain rfl := List.mem_singleton.1 h
    exact ⟨rfl, Nat.dvd_zero _⟩

/-- The cells of a number are read as what the number stands for. -/
theorem decode_number {c : Chunk} {n : Nat} {v : Value} (hv : c.ofNumber n = v)
    (hcells : item.cells env = c.numberCells n) :
    (item.cells env).length = c.size ∧ c.decode (item.cells env) = v := by
  rw [hcells, Chunk.decode_numberCells, hv]
  exact ⟨by simp [Chunk.numberCells], rfl⟩

/-- An access that reads an item finds the value in the cells of the item. -/
theorem decode_of_mem_readings (h : r ∈ item.readings env) :
    ∃ cells' : List Cell, cells'.length = r.chunk.size ∧
      (∀ i < r.chunk.size, (item.cells env)[r.index + i]? = cells'[i]?) ∧
      r.chunk.decode cells' = r.value := by
  -- An access to the whole item finds all of its cells.
  have whole : r.index = 0 → (item.cells env).length = r.chunk.size ∧
      r.chunk.decode (item.cells env) = r.value → ∃ cells' : List Cell,
        cells'.length = r.chunk.size ∧
        (∀ i < r.chunk.size, (item.cells env)[r.index + i]? = cells'[i]?) ∧
        r.chunk.decode cells' = r.value := by
    rintro hindex ⟨hlength, hdecode⟩
    exact ⟨_, hlength, fun i _ => by rw [hindex, Nat.zero_add], hdecode⟩
  cases item with
  | int8 n =>
    obtain rfl := List.mem_singleton.1 h
    exact whole rfl (decode_number (by rw [Chunk.ofNumber, BitVec.ofNat_toNat]) rfl)
  | int16 n =>
    obtain rfl := List.mem_singleton.1 h
    exact whole rfl (decode_number (by rw [Chunk.ofNumber, BitVec.ofNat_toNat]) rfl)
  | int32 n =>
    obtain rfl := List.mem_singleton.1 h
    exact whole rfl (decode_number (by
      rw [Chunk.ofNumber, BitVec.ofNat_toNat, BitVec.setWidth_eq]) rfl)
  | float32 x =>
    obtain rfl := List.mem_singleton.1 h
    exact whole rfl (decode_number (by
      rw [Chunk.ofNumber, BitVec.ofNat_toNat, BitVec.setWidth_eq]) rfl)
  | float64 x =>
    obtain rfl := List.mem_singleton.1 h
    exact whole rfl (decode_number (by
      rw [Chunk.ofNumber, BitVec.ofNat_toNat, BitVec.setWidth_eq]) rfl)
  | space count =>
    obtain ⟨i, hi, rfl⟩ := List.mem_map.1 h
    refine ⟨[.byte 0#8], rfl, fun j hj => ?_, rfl⟩
    obtain rfl : j = 0 := Nat.lt_one_iff.1 hj
    simp [cells, List.mem_range.1 hi]
  | address symbol delta =>
    rw [readings] at h
    cases hsymbol : env.symbol? symbol with
    | none => simp [hsymbol] at h
    | some b =>
      simp only [hsymbol, List.mem_singleton] at h
      subst h
      have hcells : (address symbol delta).cells env = Cell.fragments b delta := by
        simp only [cells, hsymbol]
      refine whole rfl ?_
      rw [hcells]
      exact ⟨Cell.length_fragments b delta, Chunk.decode_eq_ptr_iff.2 ⟨rfl, rfl⟩⟩

end InitialData

/-! ## Storing initial contents -/

namespace Environment

variable {env : Environment} {m m' mem : Memory} {b : BlockId} {offset : Nat} {item : InitialData}
  {items init : List InitialData}

/-- Storing zero bytes writes them. -/
theorem writes_of_storeZeros {count : Nat} (h : storeZeros m b offset count = .ok m') :
    m.Writes m' b offset (List.replicate count (.byte 0#8)) := by
  induction count generalizing m offset with
  | zero =>
    cases h
    exact .nil _ b offset
  | succ count ih =>
    rw [storeZeros_succ] at h
    obtain ⟨m₁, hstore, hrest⟩ := bind_eq_ok_iff.1 h
    have hfirst : m.Writes m₁ b offset [.byte 0#8] := .of_store hstore
    exact hfirst.append (ih hrest)

/-- Storing an item writes its cells, and its symbol has a block. -/
theorem writes_of_storeItem (h : env.storeItem m b offset item = .ok m') :
    m.Writes m' b offset (item.cells env) ∧ ∀ symbol delta, item = .address symbol delta →
      (env.symbol? symbol).isSome = true := by
  cases item with
  | address symbol delta =>
    simp only [storeItem, address?] at h
    cases hsymbol : env.symbol? symbol with
    | none => simp [hsymbol] at h
    | some a =>
      rw [hsymbol] at h
      have hcells : (InitialData.address symbol delta).cells env = Cell.fragments a delta := by
        simp only [InitialData.cells, hsymbol]
      rw [hcells]
      refine ⟨.of_store (mapError_eq_ok_iff.1 h), ?_⟩
      rintro _ _ ⟨⟩
      rw [hsymbol]
      rfl
  | space count =>
    refine ⟨writes_of_storeZeros (mapError_eq_ok_iff.1 h), ?_⟩
    rintro _ _ ⟨⟩
  | _ =>
    refine ⟨.of_store (mapError_eq_ok_iff.1 h), ?_⟩
    rintro _ _ ⟨⟩

/-- Storing items writes their cells one after the other, and their symbols have blocks. -/
theorem writes_of_storeItems (h : env.storeItems m b offset items = .ok m') :
    m.Writes m' b offset (InitialData.image env items) ∧
      ∀ symbol delta, .address symbol delta ∈ items → (env.symbol? symbol).isSome = true := by
  induction items generalizing m offset with
  | nil =>
    cases h
    exact ⟨.nil _ b offset, by simp⟩
  | cons item items ih =>
    rw [storeItems_cons] at h
    obtain ⟨m₁, hitem, hrest⟩ := bind_eq_ok_iff.1 h
    obtain ⟨hwrites, hknown⟩ := writes_of_storeItem hitem
    obtain ⟨hwrites', hknown'⟩ := ih hrest
    rw [Int.natCast_add, ← InitialData.length_cells hknown] at hwrites'
    refine ⟨hwrites.append hwrites', fun symbol delta hmem => ?_⟩
    rcases List.mem_cons.1 hmem with heq | hmem
    · exact hknown symbol delta heq.symm
    · exact hknown' symbol delta hmem

/-! ## Blocks of variables -/

/-- The block of a variable holds its initial contents. -/
structure Holds (env : Environment) (mem : Memory) (b : BlockId) (init : List InitialData) :
    Prop where
  /-- The block begins at zero and has the size of the contents. -/
  bounds : mem.bounds? b = some (0, (InitialData.totalSize init : Int))
  /-- Its bytes hold the cells of the items, one after the other. -/
  cells : ∀ i : Nat, mem.cell? b i = (InitialData.image env init)[i]?
  /-- There is a cell for each byte. -/
  length : (InitialData.image env init).length = InitialData.totalSize init
  /-- Something is known of each of them. -/
  defined : Cell.undefined ∉ InitialData.image env init
  /-- Addresses are those of symbols that have blocks. -/
  known : ∀ symbol delta, .address symbol delta ∈ init → (env.symbol? symbol).isSome = true
  /-- Each item has its cells at the offset where the items before it end. -/
  item : ∀ before item after, init = before ++ item :: after → ∀ i < item.size,
    mem.cell? b (InitialData.totalSize before + i : Nat) = (item.cells env)[i]?
  /-- Each item reads back from there. -/
  reads : ∀ before item after, init = before ++ item :: after → ∀ r ∈ item.readings env,
    mem.load r.chunk b (InitialData.totalSize before + r.index : Nat) = .ok r.value

/-- A block with the cells of initial contents holds them, if they are aligned. -/
theorem holds_of_cells (bounds : mem.bounds? b = some (0, (InitialData.totalSize init : Int)))
    (cells : ∀ i : Nat, mem.cell? b i = (InitialData.image env init)[i]?)
    (known : ∀ symbol delta, .address symbol delta ∈ init → (env.symbol? symbol).isSome = true)
    (aligned : ∀ before item after, init = before ++ item :: after →
      InitialData.align item ∣ InitialData.totalSize before) : env.Holds mem b init := by
  have hlength : ∀ item ∈ init, (item.cells env).length = item.size := fun item hmem =>
    InitialData.length_cells fun symbol delta heq => known symbol delta (heq ▸ hmem)
  have hitem : ∀ before item after, init = before ++ item :: after → ∀ i < item.size,
      mem.cell? b (InitialData.totalSize before + i : Nat) = (item.cells env)[i]? := by
    rintro before item after rfl i hi
    -- The cells of the item stand between those of the items before it and behind it.
    have hbefore : (InitialData.image env before).length = InitialData.totalSize before :=
      InitialData.length_image fun symbol delta hmem => known symbol delta (by simp [hmem])
    have hcells := hlength item (by simp)
    rw [cells, InitialData.image_append, InitialData.image_cons,
      List.getElem?_append_right (by omega), hbefore, Nat.add_sub_cancel_left,
      List.getElem?_append_left (by omega)]
  refine ⟨bounds, cells, InitialData.length_image known, InitialData.undefined_not_mem_image, known,
    hitem, fun before item after heq r hr => ?_⟩
  obtain ⟨cells', hlength', hcells', hdecode⟩ := InitialData.decode_of_mem_readings hr
  obtain ⟨halign, hindex⟩ := InitialData.align_of_mem_readings hr
  have hdvd : r.chunk.align ∣ InitialData.totalSize before + r.index :=
    Nat.dvd_add (halign ▸ aligned before item after heq) hindex
  refine Memory.load_eq_ok_iff_cells.2 ⟨by omega, cells', hlength', fun i hi => ?_, hdecode⟩
  -- The access keeps within the item, whose cells are in memory.
  have hsome : (item.cells env)[r.index + i]? = some cells'[i] := by
    rw [hcells' i hi, List.getElem?_eq_getElem (hlength' ▸ hi)]
  have hlt : r.index + i < item.size := by
    rw [← hlength item (by simp [heq])]
    exact (List.getElem?_eq_some_iff.1 hsome).1
  rw [← hcells' i hi, ← hitem before item after heq _ hlt, ← Int.natCast_add, Nat.add_assoc]

/-- A block of their size holds the aligned initial contents that are stored there. -/
theorem holds_of_storeItems
    (bounds : m.bounds? b = some (0, (InitialData.totalSize init : Int)))
    (aligned : ∀ before item after, init = before ++ item :: after →
      InitialData.align item ∣ InitialData.totalSize before)
    (h : env.storeItems m b 0 init = .ok mem) : env.Holds mem b init := by
  obtain ⟨hwrites, hknown⟩ := writes_of_storeItems h
  have hsame : m.SameBounds mem :=
    storeItems_invariant (fun _ _ _ _ _ _ hm hstore => hm.trans (.of_store hstore)) (.refl m) h
  have hlength := InitialData.length_image hknown
  refine holds_of_cells ((hsame.bounds b).trans bounds) (fun i => ?_) hknown aligned
  rw [hwrites b i]
  by_cases hi : i < (InitialData.image env init).length
  · rw [if_pos ⟨rfl, by omega, by omega⟩]
    congr 1
  · -- There is no byte behind the contents.
    rw [if_neg (by omega), List.getElem?_eq_none (by omega), ← Option.not_isSome_iff_eq_none,
      Memory.isSome_cell?_iff]
    rintro ⟨lo, hi', hbounds', -, hlt⟩
    rw [bounds] at hbounds'
    cases hbounds'
    omega

/-- What a block holds depends on its contents only. -/
theorem Holds.congr {mem' : Memory} (h : env.Holds mem b init)
    (hregion : mem'.region? b = mem.region? b) : env.Holds mem' b init := by
  have hcell : ∀ x, mem'.cell? b x = mem.cell? b x := fun x => by
    rw [Memory.cell?, hregion, Memory.cell?]
  refine ⟨?_, ?_, h.length, h.defined, h.known, ?_, fun before item after heq r hr => ?_⟩
  · rw [Memory.bounds?, hregion]
    exact h.bounds
  · simpa only [hcell] using h.cells
  · simpa only [hcell] using h.item
  · rw [Memory.load, hregion]
    exact h.reads before item after heq r hr

/-! ## Names and blocks -/

/-- The globals of an environment are numbered from one. -/
structure Numbering (env : Environment) (globals : List (String × Global)) : Prop where
  /-- The global at position `i` has block `i + 1`. -/
  block : ∀ (i : Nat) name g, globals[i]? = some (name, g) → env.symbol? name = some (i + 1)
  /-- A symbol has a block exactly if that block has the symbol as its name. -/
  inverse : ∀ name b, env.symbol? name = some b ↔ env.name? b = some name
  /-- Blocks belong to the names of globals. -/
  names : ∀ name, (env.symbol? name).isSome = true ↔ name ∈ globals.map (·.1)
  /-- Names belong to the blocks from one up to the number of globals. -/
  blocks : ∀ b, (env.name? b).isSome = true ↔ 0 < b ∧ b ≤ globals.length
  /-- The blocks of functions, and no others, have definitions of functions. -/
  function : ∀ b d, env.function? b = some d ↔
    ∃ (i : Nat) (name : String), b = i + 1 ∧ globals[i]? = some (name, .function d)

/-- A block has the name of the global at its position. -/
theorem name?_eq_some_iff {name : String} :
    env.name? b = some name ↔ ∃ (i : Nat) (g : Global), b = i + 1 ∧
      env.globals[i]? = some (name, g) := by
  cases b with
  | zero => simp [name?, entry?]
  | succ i => simp [name?]

end Environment

namespace Program

variable {p : Program} {env : Environment} {mem : Memory}

/-- The globals of a loaded program are numbered. -/
theorem Loads.numbering (h : p.Loads env mem) : env.Numbering p.globals := by
  have hget : ∀ i : Nat, env.globals[i]? = p.globals[i]? := fun i => by
    rw [h.globals, List.getElem?_toArray]
  have hnodup : (env.globals.toList.map (·.1)).Nodup := by
    rw [h.globals]
    exact h.nodup
  refine ⟨fun i name g hi => ?_, fun name b => ?_, fun name => ?_, fun b => ?_, fun b d => ?_⟩
  · exact Environment.symbol?_of_getElem? hnodup ((hget i).trans hi)
  · rw [Environment.name?_eq_some_iff]
    constructor
    · intro hb
      obtain ⟨i, g, hi, hg, -⟩ := Environment.symbol?_eq_some_iff.1 hb
      exact ⟨i, g, hi, hg⟩
    · rintro ⟨i, g, rfl, hg⟩
      exact Environment.symbol?_of_getElem? hnodup hg
  · rw [Environment.isSome_symbol?_iff, h.globals]
    simp
  · cases b with
    | zero => simp [Environment.name?, Environment.entry?]
    | succ i =>
      rw [Environment.name?, Option.isSome_map, Environment.entry?_succ, hget,
        Option.isSome_iff_ne_none, ne_eq, List.getElem?_eq_none_iff]
      exact ⟨fun h => ⟨Nat.succ_pos i, Nat.lt_of_not_le h⟩, fun h => Nat.not_le.2 h.2⟩
  · simp only [Environment.function?_eq_some_iff, hget]

/-- The initial image of memory. Of every program that has been loaded it is known that

* its globals have the blocks from one on, in their order; looking symbols up and looking names of
  blocks up are inverse to each other, between the names of globals and their blocks; and the
  definitions of functions are found in the blocks of functions and nowhere else;
* no other block has been allocated;
* the block of a function is empty;
* the bytes in the block of a variable hold the cells of its items, one after the other, and
  something is known of each; every address in them is that of a symbol with a block; and each item
  reads back from the offset where the items before it end. -/
theorem initial_image (h : p.load = .ok (env, mem)) :
    env.Numbering p.globals ∧ mem.nextBlock = p.globals.length + 1 ∧
    (∀ (i : Nat) name d, p.globals[i]? = some (name, .function d) →
      mem.bounds? (i + 1) = some (0, 0)) ∧
    (∀ (i : Nat) name init, p.globals[i]? = some (name, .variable init) →
      env.Holds mem (i + 1) init) := by
  have hloads := loads_of_load h
  have hloadable := load_isOk_iff.1 ⟨env, mem, h⟩
  refine ⟨hloads.numbering, hloads.nextBlock, fun i name d hi => ?_, fun i name init hi => ?_⟩
  · obtain ⟨size, hsize, hbounds⟩ := hloads.bounds i name _ hi
    cases hsize
    exact hbounds
  · obtain ⟨rfl, m, hm, hfill⟩ := load_eq_ok_iff.1 h
    -- Filling this block alone makes the same of it.
    obtain ⟨m₁, hblock, hregion⟩ := Environment.region?_of_fillVariables hfill hi
    obtain ⟨size, hsize, hbounds⟩ := Environment.bounds?_getElem_of_allocate hm hi
    rw [Nat.add_comm 1 i] at hblock hregion
    have hempty : Memory.empty.nextBlock + i = i + 1 := Nat.add_comm 1 i
    rw [hempty] at hbounds
    simp only [Environment.blockSize] at hsize
    split at hsize
    · cases hsize
      exact (Environment.holds_of_storeItems hbounds (fun before item after heq =>
        hloadable.aligned name before item after (heq ▸ List.mem_of_getElem? hi)) hblock).congr
        hregion
    · cases hsize

/-- A variable with contents of several sizes, among them its own address and that of a function that
is declared behind it. -/
def selfReferring : Program where
  globals := [
    ("table", .variable [.int8 0xFFFF#32, .space 1#32, .int16 0x1234#32, .address "table" 4#32,
      .address "main" 0#32, .float64 ⟨0x3FE0000000000000#64⟩]),
    ("main", .function (.external ⟨"main", .main⟩))]
  entry := "main"

/-- The two addresses in `Program.selfReferring` are read as pointers into the blocks of the variable
and of the function, and the byte at its beginning is read without sign. -/
theorem initial_image_selfReferring : ∃ env mem, selfReferring.load = .ok (env, mem) ∧
    env.name? 2 = some "main" ∧ mem.load .int8Unsigned 1 0 = .ok (.int 0xFF#32) ∧
    mem.load .int32 1 4 = .ok (.ptr 1 4#32) ∧ mem.load .int32 1 8 = .ok (.ptr 2 0#32) := by
  have hisSome : selfReferring.load.toOption.isSome = true := by decide +kernel
  obtain ⟨⟨env, mem⟩, hload⟩ := Option.isSome_iff_exists.1 hisSome
  have hload := toOption_eq_some_iff.1 hload
  obtain ⟨hnumbering, -, -, hvariables⟩ := initial_image hload
  have htable := hnumbering.block 0 _ _ rfl
  have hmain := hnumbering.block 1 _ _ rfl
  have hreads := (hvariables 0 _ _ rfl).reads
  refine ⟨env, mem, hload, (hnumbering.inverse _ _).1 hmain, ?_, ?_, ?_⟩
  · exact hreads [] _ _ rfl ⟨0, .int8Unsigned, .int 0xFF#32⟩ (by simp [InitialData.readings])
  · exact hreads [_, _, _] _ _ rfl ⟨0, .int32, .ptr 1 4#32⟩
      (by simp [InitialData.readings, htable])
  · exact hreads [_, _, _, _] _ _ rfl ⟨0, .int32, .ptr 2 0#32⟩
      (by simp [InitialData.readings, hmain])

end Program

end RegisterMachine
