import RegisterMachine.Environment
import RegisterMachine.Proofs.Memory.Bounds

/-! # The blocks of a loaded program

A loaded program has one block for each global and no others: the block of the global at position
`i` has number `i + 1` and bounds that begin at zero. Names of globals are distinct, so looking a
symbol up and looking the name of a block up are inverse to each other.

* `Environment.symbol?_eq_some_iff`, `Environment.function?_eq_some_iff` — the look-ups as positions
  among the globals.
* `Environment.allocate_isOk_iff`, `Environment.region?_of_allocate` — when allocation succeeds and
  which region each block then has.
* `Environment.storeZeros_succ`, `Environment.storeItems_cons`, `Environment.fillVariables_cons` —
  writing of initial contents as a sequence of stores.
* `Environment.fillBlock` — the memory work of one variable, which touches the block of the variable
  only.
* `Environment.Supplies`, `Environment.fillVariables_invariant` — what every store of a number or of
  an address keeps is kept when variables are filled.
* `Program.load_eq_ok_iff`, `Program.load_eq_error_iff` — loading as allocation and filling.
* `Program.Loads` — what is known of the environment and the memory of a loaded program.
* `Program.loads_of_load` — loading makes such an environment and such a memory.
-/

namespace RegisterMachine

namespace Environment

variable {env : Environment} {b : BlockId} {name : String} {m m' : Memory}

/-! ## Look-ups -/

/-- The block after position `i` belongs to the global at that position. -/
@[simp] theorem entry?_succ (env : Environment) (i : Nat) : env.entry? (i + 1) = env.globals[i]? :=
  rfl

/-- A block is that of a function if a function stands at its position. -/
theorem function?_eq_some_iff {d : FunctionDef} :
    env.function? b = some d ↔
      ∃ (i : Nat) (name : String), b = i + 1 ∧ env.globals[i]? = some (name, .function d) := by
  cases b with
  | zero => simp [function?, entry?]
  | succ i =>
    simp only [function?, entry?_succ]
    constructor
    · intro h
      split at h
      · rename_i name d' hd
        cases h
        exact ⟨i, name, rfl, hd⟩
      · cases h
    · rintro ⟨_, name, hi, hd⟩
      cases hi
      simp [hd]

/-- A symbol has the block of the first global of its name. -/
theorem symbol?_eq_some_iff :
    env.symbol? name = some b ↔
      ∃ (i : Nat) (g : Global), b = i + 1 ∧ env.globals[i]? = some (name, g) ∧
        ∀ (j : Nat) (g' : Global), env.globals[j]? = some (name, g') → i ≤ j := by
  simp only [symbol?, Option.map_eq_some_iff, Array.findIdx?_eq_some_iff_getElem]
  constructor
  · rintro ⟨i, ⟨hi, hname, hfirst⟩, rfl⟩
    refine ⟨i, env.globals[i].2, rfl, ?_, fun j g' hj => ?_⟩
    · rw [Array.getElem?_eq_getElem hi]
      simp only [decide_eq_true_eq] at hname
      rw [← hname]
    · apply Nat.le_of_not_lt
      intro hlt
      obtain ⟨hj', hg⟩ := Array.getElem?_eq_some_iff.1 hj
      exact hfirst j hlt (by simp [hg])
  · rintro ⟨i, g, rfl, hi, hfirst⟩
    obtain ⟨hi', hg⟩ := Array.getElem?_eq_some_iff.1 hi
    refine ⟨i, ⟨hi', by simp [hg], fun j hj hname => ?_⟩, rfl⟩
    have hlt : j < env.globals.size := by omega
    simp only [decide_eq_true_eq] at hname
    have hle := hfirst j env.globals[j].2 (by rw [Array.getElem?_eq_getElem hlt, ← hname])
    omega

/-- The symbols that have blocks are the names of globals. -/
theorem isSome_symbol?_iff : (env.symbol? name).isSome = true ↔ ∃ g, (name, g) ∈ env.globals := by
  rw [symbol?, Option.isSome_map, Array.findIdx?_isSome, Array.any_eq_true']
  constructor
  · rintro ⟨⟨name', g⟩, hmem, hname⟩
    rw [decide_eq_true_eq] at hname
    exact ⟨g, hname ▸ hmem⟩
  · rintro ⟨g, hmem⟩
    exact ⟨(name, g), hmem, by simp⟩

/-- Globals with distinct names are found under their names. -/
theorem symbol?_of_getElem? (nodup : (env.globals.toList.map (·.1)).Nodup) {i : Nat} {g : Global}
    (hi : env.globals[i]? = some (name, g)) : env.symbol? name = some (i + 1) := by
  refine symbol?_eq_some_iff.2 ⟨i, g, rfl, hi, fun j g' hj => ?_⟩
  rw [← Array.getElem?_toList] at hi hj
  have hij : (env.globals.toList.map (·.1))[i]? = (env.globals.toList.map (·.1))[j]? := by
    simp only [List.getElem?_map, hi, hj, Option.map_some]
  have hlt : i < (env.globals.toList.map (·.1)).length := by
    rw [List.length_map]
    exact (List.getElem?_eq_some_iff.1 hi).1
  exact Nat.le_of_eq ((List.getElem?_inj hlt nodup).1 hij)

/-! ## Allocation -/

/-- Blocks are allocated for several globals if the name of the first one is new, it keeps within
the greatest size, and blocks are allocated for the others. -/
theorem allocate_cons_eq_ok_iff {taken : List String} {g : Global}
    {rest : List (String × Global)} :
    allocate m taken ((name, g) :: rest) = .ok m' ↔
      name ∉ taken ∧ ∃ size, blockSize name g = .ok size ∧
        allocate (m.alloc 0 size).2 (name :: taken) rest = .ok m' := by
  by_cases hmem : name ∈ taken
  · simp [allocate, hmem]
  · cases hsize : blockSize name g <;> simp [allocate, hmem, hsize]

/-- Globals get blocks only if their names differ from each other and from those that are taken. -/
theorem nodup_of_allocate {gs : List (String × Global)} {taken : List String}
    (h : allocate m taken gs = .ok m') :
    (gs.map (·.1)).Nodup ∧ ∀ name ∈ gs.map (·.1), name ∉ taken := by
  induction gs generalizing m taken with
  | nil => simp
  | cons g gs ih =>
    obtain ⟨hnew, size, -, hrest⟩ := allocate_cons_eq_ok_iff.1 h
    obtain ⟨hnodup, hfresh⟩ := ih hrest
    refine ⟨?_, fun name hname => ?_⟩
    · -- The names of the others avoid that of the first one, which is taken by then.
      rw [List.map_cons, List.nodup_cons]
      exact ⟨fun hmem => hfresh g.1 hmem (by simp), hnodup⟩
    · rcases List.mem_cons.1 hname with rfl | hname
      · exact hnew
      · exact fun htaken => hfresh name hname (List.mem_cons_of_mem _ htaken)

/-- Every global gets one block. -/
theorem nextBlock_of_allocate {gs : List (String × Global)} {taken : List String}
    (h : allocate m taken gs = .ok m') : m'.nextBlock = m.nextBlock + gs.length := by
  induction gs generalizing m taken with
  | nil =>
    cases h
    rfl
  | cons g gs ih =>
    obtain ⟨-, size, -, hrest⟩ := allocate_cons_eq_ok_iff.1 h
    rw [ih hrest, Memory.nextBlock_alloc, List.length_cons, Nat.add_right_comm, Nat.add_assoc]

/-- Blocks that were there before keep their contents. -/
theorem region?_of_allocate_of_lt {gs : List (String × Global)} {taken : List String}
    (h : allocate m taken gs = .ok m') (hb : b < m.nextBlock) : m'.region? b = m.region? b := by
  induction gs generalizing m taken with
  | nil =>
    cases h
    rfl
  | cons g gs ih =>
    obtain ⟨-, size, -, hrest⟩ := allocate_cons_eq_ok_iff.1 h
    have hlt : b < (m.alloc 0 size).2.nextBlock := by
      rw [Memory.nextBlock_alloc]
      exact Nat.lt_succ_of_lt hb
    rw [ih hrest hlt, Memory.region?_alloc, if_neg (Nat.ne_of_lt hb)]

/-- Each global gets a block of as many bytes as it asks for, of which nothing is known. -/
theorem region?_of_allocate {gs : List (String × Global)} {taken : List String}
    (h : allocate m taken gs = .ok m') {i : Nat} {g : Global} (hi : gs[i]? = some (name, g)) :
    ∃ size : Nat, blockSize name g = .ok size ∧
      m'.region? (m.nextBlock + i) = some (.fresh 0 size) := by
  induction gs generalizing m taken i with
  | nil => simp at hi
  | cons g' gs ih =>
    obtain ⟨-, size, hsize, hrest⟩ := allocate_cons_eq_ok_iff.1 h
    cases i with
    | zero =>
      -- The first global has the next block, which later allocations leave alone.
      simp only [List.getElem?_cons_zero, Option.some.injEq] at hi
      subst hi
      refine ⟨size, hsize, ?_⟩
      have hlt : m.nextBlock < (m.alloc 0 size).2.nextBlock := by
        rw [Memory.nextBlock_alloc]
        exact Nat.lt_succ_self _
      rw [Nat.add_zero, region?_of_allocate_of_lt hrest hlt, Memory.region?_alloc, if_pos rfl]
    | succ i =>
      rw [List.getElem?_cons_succ] at hi
      have hregion := ih hrest hi
      rwa [Memory.nextBlock_alloc, Nat.add_assoc, Nat.add_comm 1 i] at hregion

/-- The block of each global begins at offset zero. -/
theorem bounds?_getElem_of_allocate {gs : List (String × Global)} {taken : List String}
    (h : allocate m taken gs = .ok m') {i : Nat} {g : Global} (hi : gs[i]? = some (name, g)) :
    ∃ size : Nat, blockSize name g = .ok size ∧
      m'.bounds? (m.nextBlock + i) = some (0, (size : Int)) := by
  obtain ⟨size, hsize, hregion⟩ := region?_of_allocate h hi
  refine ⟨size, hsize, Memory.bounds?_eq_some_iff.2 ⟨_, hregion, rfl, ?_⟩⟩
  exact Int.max_eq_right (Int.natCast_nonneg size)

/-- Blocks are allocated for globals with distinct names, none of which is taken, if they keep
within the greatest size. -/
theorem allocate_isOk_iff {gs : List (String × Global)} {taken : List String} :
    (∃ m', allocate m taken gs = .ok m') ↔
      ((gs.map (·.1)).Nodup ∧ ∀ name ∈ gs.map (·.1), name ∉ taken) ∧
        ∀ name g, (name, g) ∈ gs → ∃ size, blockSize name g = .ok size := by
  constructor
  · rintro ⟨m', h⟩
    refine ⟨nodup_of_allocate h, fun name g hmem => ?_⟩
    obtain ⟨i, hi⟩ := List.getElem?_of_mem hmem
    obtain ⟨size, hsize, -⟩ := region?_of_allocate h hi
    exact ⟨size, hsize⟩
  · intro h
    induction gs generalizing m taken with
    | nil => exact ⟨m, rfl⟩
    | cons g gs ih =>
      obtain ⟨name, g⟩ := g
      obtain ⟨⟨hnodup, hfresh⟩, hsizes⟩ := h
      obtain ⟨hnew, hnodup⟩ := List.nodup_cons.1 hnodup
      obtain ⟨size, hsize⟩ := hsizes name g (by simp)
      have hrest : ∀ other ∈ gs.map (·.1), other ∉ name :: taken := by
        intro other hother htaken
        rcases List.mem_cons.1 htaken with rfl | htaken
        · exact hnew hother
        · exact hfresh other (List.mem_cons_of_mem _ hother) htaken
      obtain ⟨m', hm'⟩ := ih (m := (m.alloc 0 size).2) ⟨⟨hnodup, hrest⟩, fun other g' hmem =>
        hsizes other g' (List.mem_cons_of_mem _ hmem)⟩
      exact ⟨m', allocate_cons_eq_ok_iff.2 ⟨hfresh name (by simp), size, hsize, hm'⟩⟩

/-! ## Initial contents -/

/-- Zero bytes are written one after the other. -/
theorem storeZeros_succ (m : Memory) (b : BlockId) (offset count : Nat) :
    storeZeros m b offset (count + 1) =
      m.store .int8Unsigned b offset (.int 0#32) >>= fun m₁ =>
        storeZeros m₁ b (offset + 1) count := by
  rw [storeZeros]
  cases m.store .int8Unsigned b offset (.int 0#32) <;> rfl

/-- Items are written one after the other. -/
theorem storeItems_cons (m : Memory) (b : BlockId) (offset : Nat) (item : InitialData)
    (items : List InitialData) :
    env.storeItems m b offset (item :: items) =
      env.storeItem m b offset item >>= fun m₁ =>
        env.storeItems m₁ b (offset + item.size) items := by
  rw [storeItems]
  cases env.storeItem m b offset item <;> rfl

/-- The values that initial contents consist of: numbers, and pointers to globals. -/
def Supplies (env : Environment) (v : Value) : Prop :=
  ∀ b o, v = .ptr b o → ∃ name, env.symbol? name = some b

/-- Integers may be written. -/
theorem supplies_int (n : Word) : env.Supplies (.int n) := by
  rintro b o ⟨⟩

/-- Doubles may be written. -/
theorem supplies_float (x : Double) : env.Supplies (.float x) := by
  rintro b o ⟨⟩

/-- The address of a symbol may be written: it is a pointer to a global. -/
theorem supplies_of_address? {symbol : String} {delta : Word} {a : Value}
    (h : env.address? symbol delta = some a) : env.Supplies a := by
  rintro b' o rfl
  obtain ⟨b, hb, heq⟩ := Option.map_eq_some_iff.1 h
  cases heq
  exact ⟨symbol, hb⟩

section

variable {P : Memory → Prop} {offset : Nat}
  (keep : ∀ m c (offset : Nat) v m', env.Supplies v → P m → m.store c b offset v = .ok m' → P m')

include keep

/-- What every store to a block keeps is kept when zero bytes are written there. -/
theorem storeZeros_invariant {count : Nat} (hm : P m) (h : storeZeros m b offset count = .ok m') :
    P m' := by
  induction count generalizing m offset with
  | zero =>
    cases h
    exact hm
  | succ count ih =>
    rw [storeZeros_succ] at h
    obtain ⟨m₁, hstore, hrest⟩ := bind_eq_ok_iff.1 h
    exact ih (keep _ _ _ _ _ (supplies_int _) hm hstore) hrest

/-- What every store to a block keeps is kept when an item is written there. -/
theorem storeItem_invariant {item : InitialData} (hm : P m)
    (h : env.storeItem m b offset item = .ok m') : P m' := by
  cases item with
  | int8 n => exact keep _ _ _ _ _ (supplies_int n) hm (mapError_eq_ok_iff.1 h)
  | int16 n => exact keep _ _ _ _ _ (supplies_int n) hm (mapError_eq_ok_iff.1 h)
  | int32 n => exact keep _ _ _ _ _ (supplies_int n) hm (mapError_eq_ok_iff.1 h)
  | float32 x => exact keep _ _ _ _ _ (supplies_float x) hm (mapError_eq_ok_iff.1 h)
  | float64 x => exact keep _ _ _ _ _ (supplies_float x) hm (mapError_eq_ok_iff.1 h)
  | space count => exact storeZeros_invariant keep hm (mapError_eq_ok_iff.1 h)
  | address symbol delta =>
    -- A symbol without a block stops the loading.
    simp only [storeItem] at h
    split at h
    · rename_i a ha
      exact keep _ _ _ _ _ (supplies_of_address? ha) hm (mapError_eq_ok_iff.1 h)
    · cases h

/-- What every store to a block keeps is kept when items are written there. -/
theorem storeItems_invariant {items : List InitialData} (hm : P m)
    (h : env.storeItems m b offset items = .ok m') : P m' := by
  induction items generalizing m offset with
  | nil =>
    cases h
    exact hm
  | cons item items ih =>
    rw [storeItems_cons] at h
    obtain ⟨m₁, hitem, hrest⟩ := bind_eq_ok_iff.1 h
    exact ih (storeItem_invariant keep hm hitem) hrest

end

/-- Items are written to their block only. -/
theorem region?_of_storeItems {offset : Nat} {items : List InitialData} {b' : BlockId}
    (h : env.storeItems m b offset items = .ok m') (hb : b' ≠ b) :
    m'.region? b' = m.region? b' :=
  storeItems_invariant (P := fun m' => m'.region? b' = m.region? b')
    (fun _ _ _ _ _ _ hm hstore => (Memory.region?_of_store hstore hb).trans hm) rfl h

/-- Fills the block of a global: that of a variable gets the initial contents. -/
def fillBlock (env : Environment) (m : Memory) (b : BlockId) : Global → Except LoadError Memory
  | .function _ => .ok m
  | .variable init => env.storeItems m b 0 init

/-- Filling the block of a global changes no other block. -/
theorem region?_of_fillBlock {g : Global} {b' : BlockId} (h : env.fillBlock m b g = .ok m')
    (hb : b' ≠ b) : m'.region? b' = m.region? b' := by
  cases g with
  | function d =>
    cases h
    rfl
  | «variable» init => exact region?_of_storeItems h hb

/-- Globals are filled one after the other. -/
theorem fillVariables_cons (g : Global) (gs : List (String × Global)) :
    env.fillVariables m b ((name, g) :: gs) =
      env.fillBlock m b g >>= fun m₁ => env.fillVariables m₁ (b + 1) gs := by
  cases g with
  | function d => rfl
  | «variable» init =>
    rw [fillVariables, fillBlock]
    cases env.storeItems m b 0 init <;> rfl

/-- Globals are filled if the first one is filled and then the others are. -/
theorem fillVariables_cons_eq_ok_iff {g : Global} {gs : List (String × Global)} :
    env.fillVariables m b ((name, g) :: gs) = .ok m' ↔
      ∃ m₁, env.fillBlock m b g = .ok m₁ ∧ env.fillVariables m₁ (b + 1) gs = .ok m' := by
  rw [fillVariables_cons, bind_eq_ok_iff]

section

variable {P : Memory → Prop}
  (keep : ∀ m c b (offset : Nat) v m', env.Supplies v → P m → m.store c b offset v = .ok m' →
    P m')

include keep

/-- What every store keeps is kept when the block of a global is filled. -/
theorem fillBlock_invariant {g : Global} (hm : P m) (h : env.fillBlock m b g = .ok m') :
    P m' := by
  cases g with
  | function d =>
    cases h
    exact hm
  | «variable» init => exact storeItems_invariant (fun m c => keep m c b) hm h

/-- What every store keeps is kept when variables are filled. -/
theorem fillVariables_invariant {gs : List (String × Global)} (hm : P m)
    (h : env.fillVariables m b gs = .ok m') : P m' := by
  induction gs generalizing m b with
  | nil =>
    cases h
    exact hm
  | cons g gs ih =>
    obtain ⟨m₁, hfirst, hrest⟩ := fillVariables_cons_eq_ok_iff.1 h
    exact ih (fillBlock_invariant keep hm hfirst) hrest

end

/-- Filling variables changes no bounds. -/
theorem sameBounds_of_fillVariables {gs : List (String × Global)}
    (h : env.fillVariables m b gs = .ok m') : m.SameBounds m' :=
  fillVariables_invariant (fun _ _ _ _ _ _ _ hm hstore => hm.trans (.of_store hstore)) (.refl m) h

end Environment

/-! ## Loaded programs -/

namespace Program

variable {p : Program} {env : Environment} {mem : Memory}

/-- The environment of a program. -/
def environment (p : Program) : Environment := ⟨p.globals.toArray⟩

/-- A program is loaded in two passes over its globals: their blocks are allocated and then
filled. -/
theorem load_eq_bind (p : Program) :
    p.load = Environment.allocate .empty [] p.globals >>= fun m =>
      (p.environment.fillVariables m 1 p.globals).map fun m' => (p.environment, m') := by
  cases hm : Environment.allocate .empty [] p.globals with
  | error e => simp [load, hm, bind, Except.bind]
  | ok m =>
    cases hfill : Environment.fillVariables ⟨p.globals.toArray⟩ m 1 p.globals <;>
      simp [load, environment, hm, hfill, bind, Except.bind, Except.map]

/-- A program is loaded if its blocks are allocated and then filled. -/
theorem load_eq_ok_iff :
    p.load = .ok (env, mem) ↔
      env = p.environment ∧ ∃ m, Environment.allocate .empty [] p.globals = .ok m ∧
        p.environment.fillVariables m 1 p.globals = .ok mem := by
  rw [load_eq_bind, bind_eq_ok_iff]
  constructor
  · rintro ⟨m, hm, h⟩
    obtain ⟨mem', hfill, heq⟩ := map_eq_ok_iff.1 h
    cases heq
    exact ⟨rfl, m, hm, hfill⟩
  · rintro ⟨rfl, m, hm, hfill⟩
    exact ⟨m, hm, map_eq_ok_iff.2 ⟨mem, hfill, rfl⟩⟩

/-- A program is not loaded if a block cannot be allocated, or cannot be filled. -/
theorem load_eq_error_iff {e : LoadError} :
    p.load = .error e ↔ Environment.allocate .empty [] p.globals = .error e ∨
      ∃ m, Environment.allocate .empty [] p.globals = .ok m ∧
        p.environment.fillVariables m 1 p.globals = .error e := by
  rw [load_eq_bind, bind_eq_error_iff]
  simp only [map_eq_error_iff]

end Program

/-- What is known of an environment and a memory into which a program has been loaded, whatever its
variables contain. -/
structure Program.Loads (p : Program) (env : Environment) (mem : Memory) : Prop where
  /-- The globals of the environment are those of the program. -/
  globals : env.globals = p.globals.toArray
  /-- Names of globals are distinct. -/
  nodup : (p.globals.map (·.1)).Nodup
  /-- There is one block for each global, and no other. -/
  nextBlock : mem.nextBlock = p.globals.length + 1
  /-- The block of a global has the bytes that the global asks for. -/
  bounds : ∀ (i : Nat) (name : String) (g : Global), p.globals[i]? = some (name, g) →
    ∃ size : Nat, Environment.blockSize name g = .ok size ∧
      mem.bounds? (i + 1) = some (0, (size : Int))

/-- Loading makes an environment and a memory with one block for each global. -/
theorem Program.loads_of_load {p : Program} {env : Environment} {mem : Memory}
    (h : p.load = .ok (env, mem)) : p.Loads env mem := by
  obtain ⟨rfl, m, hm, hfill⟩ := load_eq_ok_iff.1 h
  -- Initial contents go into blocks that are allocated before.
  have hsame := Environment.sameBounds_of_fillVariables hfill
  refine ⟨rfl, (Environment.nodup_of_allocate hm).1, ?_, fun i name g hi => ?_⟩
  · rw [hsame.nextBlock, Environment.nextBlock_of_allocate hm, Nat.add_comm]
    rfl
  · obtain ⟨size, hsize, hbounds⟩ := Environment.bounds?_getElem_of_allocate hm hi
    refine ⟨size, hsize, ?_⟩
    rw [hsame.bounds, Nat.add_comm]
    exact hbounds

namespace Program.Loads

variable {p : Program} {env : Environment} {mem : Memory} {b : BlockId} {name : String}
  {g : Global}

/-- The live blocks are those of the globals. -/
theorem isLive_iff (h : p.Loads env mem) :
    mem.isLive b = true ↔ 0 < b ∧ b ≤ p.globals.length := by
  constructor
  · intro hb
    have hlt := Memory.lt_nextBlock_of_isLive hb
    rw [h.nextBlock] at hlt
    exact ⟨Memory.pos_of_isLive hb, Nat.lt_succ_iff.1 hlt⟩
  · rintro ⟨hpos, hle⟩
    obtain ⟨i, rfl⟩ : ∃ i, b = i + 1 := ⟨b - 1, (Nat.succ_pred_eq_of_pos hpos).symm⟩
    obtain ⟨size, -, hbounds⟩ := h.bounds i _ _ (List.getElem?_eq_getElem hle)
    simp [Memory.isLive_eq_isSome_bounds?, hbounds]

/-- The block of a function belongs to a global of the program. -/
theorem mem_of_function? {d : FunctionDef} (h : p.Loads env mem)
    (hd : env.function? b = some d) : ∃ name, (name, .function d) ∈ p.globals := by
  obtain ⟨i, name, -, hi⟩ := Environment.function?_eq_some_iff.1 hd
  rw [h.globals, List.getElem?_toArray] at hi
  exact ⟨name, List.mem_of_getElem? hi⟩

/-- Each global of the program is found under its name. -/
theorem symbol?_of_mem (h : p.Loads env mem) (hg : (name, g) ∈ p.globals) :
    ∃ i : Nat, env.symbol? name = some (i + 1) ∧ env.globals[i]? = some (name, g) := by
  obtain ⟨i, hi⟩ := List.getElem?_of_mem hg
  have hi' : env.globals[i]? = some (name, g) := by rw [h.globals, List.getElem?_toArray, hi]
  have hnodup : (env.globals.toList.map (·.1)).Nodup := by
    rw [h.globals]
    exact h.nodup
  exact ⟨i, Environment.symbol?_of_getElem? hnodup hi', hi'⟩

/-- A function of the program is found under its name. -/
theorem function?_symbol?_of_mem {d : FunctionDef} (h : p.Loads env mem)
    (hg : (name, .function d) ∈ p.globals) :
    ∃ b, env.symbol? name = some b ∧ env.function? b = some d := by
  obtain ⟨i, hi, hd⟩ := h.symbol?_of_mem hg
  exact ⟨i + 1, hi, Environment.function?_eq_some_iff.2 ⟨i, name, rfl, hd⟩⟩

end Program.Loads

end RegisterMachine
