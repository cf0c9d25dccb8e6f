import RegisterMachine.Proofs.Check.Order
import RegisterMachine.Proofs.Renaming.Loading
import RegisterMachine.Proofs.Renaming.Runs

/-! # The order of declarations

The order in which a program declares its globals decides on the numbers of their blocks and on
nothing else. Checks look globals up by their names, which are distinct; loading fills each block on
its own; and a run does not depend on the numbers of blocks.

* `Environment.blockMap` — from the blocks of globals in one order to those in another order.
* `Environment.Reordered.renames` — the look-ups agree up to this renaming.
* `Program.load_of_perm` — so does the memory into which the program is loaded.
* `Program.behavior` — what can be observed of a program.
* `Program.order_unobservable` — the order of declarations cannot be observed.
-/

namespace RegisterMachine

/-! ## Environments -/

namespace Environment

variable {env env' : Environment} {b : BlockId} {name : String} {g : String × Global}

/-- The renaming from the blocks of one environment to those of another one: the block of a global
becomes the block of the same name, and all other blocks keep their numbers. -/
def blockMap (env env' : Environment) (b : BlockId) : BlockId :=
  match env.name? b with
  | some name => (env'.symbol? name).getD b
  | none => b

/-- The blocks of no global are block zero and those behind the last global. -/
theorem entry?_eq_none_iff : env.entry? b = none ↔ b = 0 ∨ env.globals.size < b := by
  cases b with
  | zero => exact ⟨fun _ => .inl rfl, fun _ => rfl⟩
  | succ i =>
    rw [entry?_succ, Array.getElem?_eq_none_iff, Nat.lt_succ_iff]
    exact ⟨.inr, fun h => h.resolve_left (Nat.succ_ne_zero i)⟩

/-- Blocks of no global keep their numbers. -/
theorem blockMap_of_no_global (h : env.entry? b = none) : env.blockMap env' b = b := by
  rw [blockMap, name?, h, Option.map_none]

/-- The block of a global becomes that of its name. -/
theorem blockMap_of_global {b' : BlockId} (h : env.entry? b = some g)
    (hname : env'.symbol? g.1 = some b') : env.blockMap env' b = b' := by
  simp only [blockMap, name?, h, Option.map_some, hname, Option.getD_some]

/-- Every global has a block. -/
theorem exists_entry?_iff : (∃ b, env.entry? b = some g) ↔ g ∈ env.globals.toList := by
  constructor
  · rintro ⟨b, hb⟩
    cases b with
    | zero => cases hb
    | succ i => exact Array.mem_toList_iff.2 (Array.mem_of_getElem? hb)
  · intro hmem
    obtain ⟨i, hi⟩ := List.getElem?_of_mem hmem
    exact ⟨i + 1, by rwa [Array.getElem?_toList] at hi⟩

/-- The block of a symbol is that of a global of this name. -/
theorem exists_entry?_of_symbol? (h : env.symbol? name = some b) :
    ∃ d, env.entry? b = some (name, d) := by
  obtain ⟨i, d, rfl, hi, -⟩ := symbol?_eq_some_iff.1 h
  exact ⟨d, hi⟩

/-- A global whose name is no other one's is found under its name. -/
theorem symbol?_of_global (nodup : (env.globals.toList.map (·.1)).Nodup)
    (h : env.entry? b = some g) : env.symbol? g.1 = some b := by
  cases b with
  | zero => cases h
  | succ i => exact symbol?_of_getElem? nodup h

/-- Two environments have the same globals, with distinct names, maybe in different orders. -/
structure Reordered (env env' : Environment) : Prop where
  /-- The globals are the same. -/
  perm : env.globals.toList.Perm env'.globals.toList
  /-- Their names are distinct. -/
  nodup : (env.globals.toList.map (·.1)).Nodup

namespace Reordered

variable (h : env.Reordered env')

include h

/-- The order can be changed back. -/
theorem symm : env'.Reordered env := ⟨h.perm.symm, (h.perm.map (·.1)).nodup_iff.1 h.nodup⟩

/-- The new block of a global is that of the same global. -/
theorem entry?_blockMap (b : BlockId) : env'.entry? (env.blockMap env' b) = env.entry? b := by
  cases hb : env.entry? b with
  | none =>
    have hsize : env'.globals.size = env.globals.size := by
      rw [← Array.length_toList, ← Array.length_toList, h.perm.length_eq]
    rw [blockMap_of_no_global hb, entry?_eq_none_iff, hsize]
    exact entry?_eq_none_iff.1 hb
  | some g =>
    obtain ⟨b', hb'⟩ := exists_entry?_iff.2 (h.perm.mem_iff.1 (exists_entry?_iff.1 ⟨b, hb⟩))
    rw [blockMap_of_global hb (symbol?_of_global h.symm.nodup hb'), hb']

/-- Renaming blocks there and back changes nothing. -/
theorem blockMap_blockMap (b : BlockId) : env'.blockMap env (env.blockMap env' b) = b := by
  have hentry := h.entry?_blockMap b
  cases hb : env.entry? b with
  | none =>
    rw [hb] at hentry
    rw [blockMap_of_no_global hentry, blockMap_of_no_global hb]
  | some g =>
    rw [hb] at hentry
    exact blockMap_of_global hentry (symbol?_of_global h.nodup hb)

/-- The look-ups in the second environment are those in the first one, up to the renaming. -/
theorem renames : env.Renames (env.blockMap env') env' where
  injective := fun b b' heq => by
    rw [← h.blockMap_blockMap b, heq, h.blockMap_blockMap]
  symbol? := fun name => by
    cases hname : env.symbol? name with
    | some b =>
      obtain ⟨d, hb⟩ := exists_entry?_of_symbol? hname
      rw [← h.entry?_blockMap] at hb
      rw [symbol?_of_global h.symm.nodup hb, Option.map_some]
    | none =>
      -- A block under this name would belong to a global of the first environment as well.
      cases hname' : env'.symbol? name with
      | none => rfl
      | some b' =>
        obtain ⟨d, hb'⟩ := exists_entry?_of_symbol? hname'
        rw [← h.symm.entry?_blockMap] at hb'
        rw [symbol?_of_global h.nodup hb'] at hname
        cases hname
  function? := fun b => by rw [function?, function?, h.entry?_blockMap]

end Reordered

end Environment

/-! ## Loading -/

namespace Program

variable {p p' : Program} {env : Environment} {mem : Memory} {conv : Convention} {b : BlockId}

/-- The renaming from the blocks of one program to those of another one by the names of globals. -/
def blockMap (p p' : Program) : BlockId → BlockId := p.environment.blockMap p'.environment

/-- The block of a global stands at the position of the global. -/
theorem exists_of_global {g : String × Global} (h : p.environment.entry? b = some g) :
    ∃ i, b = 1 + i ∧ p.globals[i]? = some g := by
  cases b with
  | zero => cases h
  | succ i =>
    rw [Environment.entry?_succ, environment, List.getElem?_toArray] at h
    exact ⟨i, Nat.add_comm i 1, h⟩

/-- Programs with the same globals, the names of which are distinct, have such environments. -/
theorem reordered (hperm : p.globals.Perm p'.globals) (nodup : (p.globals.map (·.1)).Nodup) :
    p.environment.Reordered p'.environment := ⟨hperm, nodup⟩

/-- Nothing is known of the block of a global that has been allocated. -/
theorem region?_of_allocate {m : Memory} {g : String × Global}
    (h : Environment.allocate .empty [] p.globals = .ok m)
    (hb : p.environment.entry? b = some g) :
    ∃ size : Nat, Environment.blockSize g.1 g.2 = .ok size ∧
      m.region? b = some (.fresh 0 size) := by
  obtain ⟨i, rfl, hi⟩ := exists_of_global hb
  exact Environment.region?_of_allocate h hi

/-- The block of a global that has been filled holds what filling it alone makes of it. -/
theorem region?_of_fillVariables {m : Memory} {g : String × Global}
    (h : p.environment.fillVariables m 1 p.globals = .ok mem)
    (hb : p.environment.entry? b = some g) :
    ∃ m₁, p.environment.fillBlock m b g.2 = .ok m₁ ∧ mem.region? b = m₁.region? b := by
  obtain ⟨i, rfl, hi⟩ := exists_of_global hb
  exact Environment.region?_of_fillVariables h hi

/-- Blocks that no global has are not live when only those of globals have been allocated. -/
theorem region?_eq_none (hnext : mem.nextBlock = p.globals.length + 1)
    (h : p.environment.entry? b = none) : mem.region? b = none := by
  rcases Environment.entry?_eq_none_iff.1 h with rfl | hlt
  · rfl
  · cases hr : mem.region? b with
    | none => rfl
    | some r =>
      have hb := Memory.lt_nextBlock_of_region? hr
      rw [hnext] at hb
      exact absurd hlt (Nat.not_lt.2 (Nat.le_of_lt_succ hb))

/-- Memories with the blocks of globals only are renamed if these blocks are. -/
theorem renames_of_globals (hperm : p.globals.Perm p'.globals)
    (nodup : (p.globals.map (·.1)).Nodup) {mem' : Memory}
    (hnext : mem.nextBlock = p.globals.length + 1)
    (hnext' : mem'.nextBlock = p'.globals.length + 1)
    (hglobals : ∀ b g, p.environment.entry? b = some g →
      Memory.RenamesAt (p.blockMap p') b mem mem') : mem.Renames (p.blockMap p') mem' := by
  have hreordered := reordered hperm nodup
  refine ⟨hreordered.renames.injective, ?_, fun b hb => ?_, fun b => ?_⟩
  · rw [hnext, hnext', hperm.length_eq]
  · rw [hnext] at hb
    exact Environment.blockMap_of_no_global (Environment.entry?_eq_none_iff.2 (.inr hb))
  · cases hb : p.environment.entry? b with
    | some g => exact hglobals b g hb
    | none =>
      have hb' := hreordered.entry?_blockMap b
      rw [hb] at hb'
      rw [Memory.RenamesAt, region?_eq_none hnext hb, Option.map_none]
      exact region?_eq_none hnext' hb'

/-- Allocation makes the same blocks in every order of the globals, under other numbers. -/
theorem allocate_renames (hperm : p.globals.Perm p'.globals) {m m' : Memory}
    (h : Environment.allocate .empty [] p.globals = .ok m)
    (h' : Environment.allocate .empty [] p'.globals = .ok m') :
    m.Renames (p.blockMap p') m' := by
  have hnodup := (Environment.nodup_of_allocate h).1
  have hnext : m.nextBlock = p.globals.length + 1 := by
    rw [Environment.nextBlock_of_allocate h, Nat.add_comm]
    rfl
  have hnext' : m'.nextBlock = p'.globals.length + 1 := by
    rw [Environment.nextBlock_of_allocate h', Nat.add_comm]
    rfl
  refine renames_of_globals hperm hnodup hnext hnext' fun b g hb => ?_
  have hb' := (reordered hperm hnodup).entry?_blockMap b
  rw [hb] at hb'
  obtain ⟨size, hsize, hregion⟩ := region?_of_allocate h hb
  obtain ⟨size', hsize', hregion'⟩ := region?_of_allocate h' hb'
  rw [hsize, Except.ok.injEq] at hsize'
  rw [Memory.RenamesAt, hregion, Option.map_some, Region.fresh_rename, hsize']
  exact hregion'

/-- Blocks are allocated in every order of the globals. -/
theorem exists_allocate_of_perm (hperm : p.globals.Perm p'.globals) {m : Memory}
    (h : Environment.allocate .empty [] p.globals = .ok m) :
    ∃ m', Environment.allocate .empty [] p'.globals = .ok m' := by
  obtain ⟨⟨hnodup, -⟩, hsizes⟩ := Environment.allocate_isOk_iff.1 ⟨m, h⟩
  refine Environment.allocate_isOk_iff.2 ⟨⟨(hperm.map _).nodup_iff.1 hnodup, ?_⟩, ?_⟩
  · exact fun _ _ => List.not_mem_nil
  · intro name g hmem
    exact hsizes name g (hperm.mem_iff.2 hmem)

/-- In every order of the globals the block of each of them can be filled, and it gets the renamed
contents. -/
theorem fillBlock_of_perm (hperm : p.globals.Perm p'.globals)
    (nodup : (p.globals.map (·.1)).Nodup) {m m' : Memory} {g : String × Global}
    (hrenames : m.Renames (p.blockMap p') m')
    (h : p.environment.fillVariables m 1 p.globals = .ok mem)
    (hb : p.environment.entry? b = some g) :
    ∃ m₁', p'.environment.fillBlock m' (p.blockMap p' b) g.2 = .ok m₁' ∧
      m₁'.region? (p.blockMap p' b) = (mem.region? b).map (Region.rename (p.blockMap p')) := by
  obtain ⟨m₁, hm₁, hregion⟩ := region?_of_fillVariables h hb
  have hboth :=
    Environment.fillBlock_renames (reordered hperm nodup).renames (hrenames.regions b) g.2
  rw [hm₁] at hboth
  generalize hx : p'.environment.fillBlock m' _ g.2 = x at hboth
  cases hboth with
  | ok hfilled =>
    rw [hregion]
    exact ⟨_, hx, hfilled⟩

/-- In every order of the globals a program is loaded into the same memory, up to the renaming of
blocks. -/
theorem load_of_perm (hperm : p.globals.Perm p'.globals) (h : p.load = .ok (env, mem)) :
    ∃ mem', p'.load = .ok (p'.environment, mem') ∧ mem.Renames (p.blockMap p') mem' := by
  obtain ⟨rfl, m, hm, hfill⟩ := load_eq_ok_iff.1 h
  have hloads := loads_of_load h
  have hreordered := reordered hperm hloads.nodup
  obtain ⟨m', hm'⟩ := exists_allocate_of_perm hperm hm
  have hblock := fun b g => fillBlock_of_perm (b := b) (g := g) hperm hloads.nodup
    (allocate_renames hperm hm hm') hfill
  have hfills : ∃ mem', p'.environment.fillVariables m' 1 p'.globals = .ok mem' := by
    refine Environment.fillVariables_isOk fun j name g hj => ?_
    -- Each block of the second program is the new block of a global of the first one.
    have hb' : p'.environment.entry? (1 + j) = some (name, g) := by
      rw [Nat.add_comm, Environment.entry?_succ, environment, List.getElem?_toArray, hj]
    rw [← hreordered.symm.entry?_blockMap] at hb'
    obtain ⟨m₁', hm₁', -⟩ := hblock _ _ hb'
    rw [blockMap, hreordered.symm.blockMap_blockMap] at hm₁'
    exact ⟨m₁', hm₁'⟩
  obtain ⟨mem', hfill'⟩ := hfills
  have hload' : p'.load = .ok (p'.environment, mem') := load_eq_ok_iff.2 ⟨rfl, m', hm', hfill'⟩
  refine ⟨mem', hload', renames_of_globals hperm hloads.nodup hloads.nextBlock
    (loads_of_load hload').nextBlock fun b g hb => ?_⟩
  have hb' := hreordered.entry?_blockMap b
  rw [hb] at hb'
  obtain ⟨m₁', hm₁', hregion⟩ := hblock b g hb
  obtain ⟨m₂', hm₂', hregion'⟩ := region?_of_fillVariables hfill' hb'
  have heq : m₂' = m₁' := Except.ok.inj (hm₂'.symm.trans hm₁')
  rw [Memory.RenamesAt, ← hregion, ← heq]
  exact hregion'

/-! ## Behaviors -/

variable {σ : Type} {x : Externals σ}

/-- An execution of a program with given external calls, with return addresses by position in the
code. -/
def executionWith (p : Program) (x : Externals σ) (host : σ) (conv : Convention) :
    Except LoadError (Execution σ) :=
  match p.load with
  | .error e => .error e
  | .ok (env, mem) =>
    match env.initialState p.entry mem with
    | .error e => .error e
    | .ok s => .ok (.start ⟨env, conv, .codeOffset, x⟩ host s)

/-- What can be observed of a program with given external calls, within a number of steps. -/
def behavior (p : Program) (x : Externals σ) (host : σ) (conv : Convention) (fuel : Nat) :
    Except LoadError Behavior :=
  (p.executionWith x host conv).map fun e => e.run fuel

/-- A program is run with the host primitives. -/
theorem run_eq_behavior (p : Program) (options : RunOptions) :
    p.run options = p.behavior .host () options.convention options.fuel := rfl

/-- A program that is loaded has in every order of its globals the same behavior, up to the blocks
that a reason for being stuck names. -/
theorem behavior_of_perm (hperm : p.globals.Perm p'.globals) (hentry : p.entry = p'.entry)
    (h : p.load = .ok (env, mem)) (hx : x.IgnoresBlocks) (host : σ) (conv : Convention)
    (fuel : Nat) :
    p'.behavior x host conv fuel =
      (p.behavior x host conv fuel).map (Behavior.rename (p.blockMap p')) := by
  obtain ⟨mem', hload', hmem⟩ := load_of_perm hperm h
  have henv : p.environment.Renames (p.blockMap p') p'.environment :=
    (reordered hperm (loads_of_load h).nodup).renames
  obtain ⟨rfl, -⟩ := load_eq_ok_iff.1 h
  simp only [behavior, executionWith, h, hload', Environment.initialState, ← hentry, henv.symbol?]
  cases p.environment.symbol? p.entry with
  | none => rfl
  | some b =>
    simp only [Option.map_some, henv.function?]
    by_cases hf : (p.environment.function? b).isSome = true
    · -- Both runs begin, in renamed states.
      have hstates : State.Renames (p.blockMap p') ⟨.calling b, [], .empty, mem⟩
          ⟨.calling (p.blockMap p' b), [], .empty, mem'⟩ := ⟨rfl, rfl, .empty, hmem⟩
      have hmachines : Machine.Renames (p.blockMap p') ⟨p.environment, conv, .codeOffset, x⟩
          ⟨p'.environment, conv, .codeOffset, x⟩ :=
        ⟨henv, rfl, rfl, ReturnAddresses.codeOffset_commutesWith, rfl, hx⟩
      have hstarts : Execution.Renames (p.blockMap p') (.start _ host _) (.start _ host _) :=
        ⟨hmachines, rfl, .live hstates, rfl⟩
      simp only [if_pos hf]
      exact congrArg Except.ok (hstarts.run fuel)
    · simp only [if_neg hf]
      rfl

/-- The order of declarations cannot be observed. If two programs have the same globals, maybe
declared in different orders, and the same entry point, then

* both are well formed or none is, under every convention;
* both can be loaded or none can;
* if they are loaded, every symbol has the renamed block, and all blocks behind those of the globals
  keep their numbers;
* both have then the same behavior with the host primitives and with results fixed in advance, under
  every convention and for every budget of steps: they end in the same way, with the same trace and
  the same exit code, and if they get stuck they do so for the same reason, up to the renaming of
  the blocks of globals. -/
theorem order_unobservable (hperm : p.globals.Perm p'.globals) (hentry : p.entry = p'.entry) :
    (∀ conv, p.WellFormed conv ↔ p'.WellFormed conv) ∧
    ((∃ r, p.load = .ok r) ↔ ∃ r, p'.load = .ok r) ∧
    ∀ env mem, p.load = .ok (env, mem) →
      (∀ name, p'.environment.symbol? name = (env.symbol? name).map (p.blockMap p')) ∧
      (∀ b, p.globals.length < b → p.blockMap p' b = b) ∧
      ∀ conv fuel,
        p'.behavior .host () conv fuel =
          (p.behavior .host () conv fuel).map (Behavior.rename (p.blockMap p')) ∧
        ∀ results, p'.behavior .scripted results conv fuel =
          (p.behavior .scripted results conv fuel).map (Behavior.rename (p.blockMap p')) := by
  refine ⟨fun conv => ?_, ?_, fun env mem hload => ?_⟩
  · exact ⟨fun h => h.of_perm hperm hentry, fun h => h.of_perm hperm.symm hentry.symm⟩
  · constructor
    · rintro ⟨⟨env, mem⟩, hload⟩
      obtain ⟨mem', hload', -⟩ := load_of_perm hperm hload
      exact ⟨_, hload'⟩
    · rintro ⟨⟨env', mem'⟩, hload'⟩
      obtain ⟨mem, hload, -⟩ := load_of_perm hperm.symm hload'
      exact ⟨_, hload⟩
  · obtain ⟨rfl, -⟩ := load_eq_ok_iff.1 hload
    refine ⟨?_, fun b hb => ?_, fun conv fuel => ⟨?_, fun results => ?_⟩⟩
    · exact (reordered hperm (loads_of_load hload).nodup).renames.symbol?
    · refine Environment.blockMap_of_no_global (Environment.entry?_eq_none_iff.2 (.inr ?_))
      rw [environment, List.size_toArray]
      exact hb
    · exact behavior_of_perm hperm hentry hload Externals.ignoresBlocks_host () conv fuel
    · exact behavior_of_perm hperm hentry hload Externals.ignoresBlocks_scripted results conv fuel

/-- The entry point returns the address of a variable that is declared behind it. -/
def yieldAddress : Program where
  globals := [
    ("main", .function (.internal {
      signature := .main
      code := #[.op (.addrSymbol "x" 0#32) [] Convention.standard.intResult, .ret]
      frameSize := 8#32
      stackSize := 0#32
      linkSlot := 0#32
      returnSlot := 1#32 })),
    ("x", .variable [.int32 7#32])]
  entry := "main"

/-- An address is no exit code, so `Program.yieldAddress` goes wrong. The reason names block 2, and
block 1 if the variable is declared first. -/
theorem order_unobservable_yieldAddress :
    yieldAddress.behavior .host () .standard 10 =
      .ok (.goesWrong [] (.badExitValue (.ptr 2 0#32))) ∧
    (⟨yieldAddress.globals.reverse, "main"⟩ : Program).behavior .host () .standard 10 =
      .ok (.goesWrong [] (.badExitValue (.ptr 1 0#32))) := by
  have hbehavior : yieldAddress.behavior .host () .standard 10 =
      .ok (.goesWrong [] (.badExitValue (.ptr 2 0#32))) :=
    toOption_eq_some_iff.1 (by decide +kernel)
  have hisSome : yieldAddress.load.toOption.isSome = true := by decide +kernel
  obtain ⟨⟨env, mem⟩, hload⟩ := Option.isSome_iff_exists.1 hisSome
  have hperm : yieldAddress.globals.Perm
      (⟨yieldAddress.globals.reverse, "main"⟩ : Program).globals := (List.reverse_perm _).symm
  have hmain := order_unobservable hperm rfl
  obtain ⟨-, -, hruns⟩ := hmain.2.2 env mem (toOption_eq_some_iff.1 hload)
  have hblock : yieldAddress.blockMap ⟨yieldAddress.globals.reverse, "main"⟩ 2 = 1 := by
    decide +kernel
  refine ⟨hbehavior, ?_⟩
  rw [(hruns .standard 10).1, hbehavior]
  simp only [Except.map, Behavior.rename, Stuck.rename, Value.rename_ptr, hblock]

end Program

end RegisterMachine
