import RegisterMachine.Machine.Execution
import RegisterMachine.Proofs.Check.Accepted
import RegisterMachine.Proofs.Check.Order
import RegisterMachine.Proofs.Environment.Alignment

/-! # Loading checked programs

The checks and the loader look at globals independently of each other. Names, sizes, symbols and the
entry point have been checked when a program is loaded. The offsets of initial contents have not,
and they are the only thing for which a well-formed program is refused.

* `Program.WellFormed.allocate_isOk` — the globals of a well-formed program get their blocks.
* `Program.WellFormed.isSome_symbol?` — the symbols of initial contents have blocks.
* `Program.checked_loads` — a well-formed program is loaded and started exactly if its initial
  contents are aligned.
-/

namespace RegisterMachine

namespace Program

variable {p : Program} {conv : Convention} {env : Environment} {mem : Memory} {name : String}

/-- A global that is declared has a block. -/
theorem isSome_symbol?_of_mem {g : Global} (h : (name, g) ∈ p.globals) :
    (p.environment.symbol? name).isSome = true :=
  Environment.isSome_symbol?_iff.2 ⟨g, List.mem_toArray.2 h⟩

namespace WellFormed

/-- The blocks of a well-formed program can be allocated: its names are distinct, and its variables
keep within the greatest size. -/
theorem allocate_isOk (h : p.WellFormed conv) :
    ∃ m, Environment.allocate .empty [] p.globals = .ok m := by
  refine Environment.allocate_isOk_iff.2 ⟨⟨h.nodup, by simp⟩, fun name g hmem => ?_⟩
  have hframes := (wellFormed_iff.1 h).2.1
  simp only [frameViolations, List.append_eq_nil_iff, List.flatMap_eq_nil_iff] at hframes
  have hsize := hframes.1 (name, g) hmem
  cases g with
  | function d => exact ⟨0, rfl⟩
  | «variable» init =>
    simp only [variableViolations, singleton_ite_eq_nil_iff, Nat.not_lt] at hsize
    exact ⟨_, by rw [Environment.blockSize, if_pos hsize]⟩

/-- The symbols of which initial contents hold the addresses have blocks. -/
theorem isSome_symbol? (h : p.WellFormed conv) (hmention : p.ContentsMention name) :
    (p.environment.symbol? name).isSome = true := by
  obtain ⟨var, init, delta, hvar, hmem⟩ := hmention
  have hsymbols := (wellFormed_iff.1 h).1
  simp only [symbolViolations, List.append_eq_nil_iff, List.flatMap_eq_nil_iff] at hsymbols
  have hcontents := hsymbols.1.2 (var, .variable init) hvar
  simp only [contentViolations, List.flatMap_eq_nil_iff] at hcontents
  have hsome := hcontents (.address name delta) hmem
  simp only [initialViolations, ite_singleton_eq_nil_iff] at hsome
  obtain ⟨g, hg⟩ := Option.isSome_iff_exists.1 hsome
  exact isSome_symbol?_of_mem (mem_of_lastGlobal? hg)

/-- A well-formed program is loaded exactly if its initial contents are aligned. -/
theorem load_isOk_iff (h : p.WellFormed conv) :
    (∃ env mem, p.load = .ok (env, mem)) ↔ p.ContentsAligned := by
  obtain ⟨m, hm⟩ := h.allocate_isOk
  rw [← (fill_result hm).isOk_iff fun name => h.isSome_symbol?]
  simp only [load_eq_ok_iff, hm, Except.ok.injEq, exists_eq_left', exists_and_left, exists_eq_left]

/-- A well-formed program is not loaded because of the alignment of an item only. -/
theorem exists_misaligned_of_load {e : LoadError} (h : p.WellFormed conv)
    (hload : p.load = .error e) : ∃ c b offset, e = .memory (.misaligned c b offset) := by
  obtain ⟨m, hm⟩ := h.allocate_isOk
  rcases load_eq_error_iff.1 hload with he | ⟨m', hm', hfill⟩
  · rw [hm] at he
    cases he
  · have hresult := fill_result hm'
    rw [hfill] at hresult
    exact hresult.exists_misaligned_of_error fun name => h.isSome_symbol?

/-- A well-formed program that has been loaded can be started. -/
theorem initialState_isOk (h : p.WellFormed conv) (hload : p.load = .ok (env, mem)) :
    ∃ s, env.initialState p.entry mem = .ok s := by
  obtain ⟨f, hmem, -⟩ := h.entry
  obtain ⟨b, hb, hf⟩ := (loads_of_load hload).function?_symbol?_of_mem hmem
  exact ⟨⟨.calling b, [], .empty, mem⟩, by simp [Environment.initialState, hb, hf]⟩

/-- A well-formed program is run with any options if it is loaded, and otherwise not loaded for the
same reason. -/
theorem run_cases (h : p.WellFormed conv) (options : RunOptions) :
    (∃ env mem behavior, p.load = .ok (env, mem) ∧ p.run options = .ok behavior) ∨
      ∃ e, p.load = .error e ∧ p.run options = .error e := by
  cases hload : p.load with
  | error e => exact .inr ⟨e, rfl, by simp only [run, execution, hload]; rfl⟩
  | ok r =>
    obtain ⟨s, hs⟩ := h.initialState_isOk hload
    exact .inl ⟨r.1, r.2, _, rfl, by simp only [run, execution, hload, hs]; rfl⟩

end WellFormed

/-- What is checked is loaded, if its initial contents are aligned. Of a program that is well formed
under a convention it is known that

* it is loaded, and the state that calls its entry point formed, exactly if its initial contents are
  aligned;
* if it is not loaded memory has refused an item for its alignment;
* once it is loaded nothing keeps it from being started;
* with any options it is run exactly if its initial contents are aligned, and otherwise memory has
  refused an item for its alignment. -/
theorem checked_loads (hwf : p.WellFormed conv) :
    ((∃ env mem s, p.load = .ok (env, mem) ∧ env.initialState p.entry mem = .ok s) ↔
      p.ContentsAligned) ∧
    (∀ e, p.load = .error e → ∃ c b offset, e = .memory (.misaligned c b offset)) ∧
    (∀ env mem, p.load = .ok (env, mem) → ∃ s, env.initialState p.entry mem = .ok s) ∧
    ∀ options, ((∃ behavior, p.run options = .ok behavior) ↔ p.ContentsAligned) ∧
      ∀ e, p.run options = .error e → ∃ c b offset, e = .memory (.misaligned c b offset) := by
  have hstarts : (∃ env mem s, p.load = .ok (env, mem) ∧ env.initialState p.entry mem = .ok s) ↔
      p.ContentsAligned := by
    rw [← hwf.load_isOk_iff]
    constructor
    · rintro ⟨env, mem, s, hload, -⟩
      exact ⟨env, mem, hload⟩
    · rintro ⟨env, mem, hload⟩
      obtain ⟨s, hs⟩ := hwf.initialState_isOk hload
      exact ⟨env, mem, s, hload, hs⟩
  refine ⟨hstarts, fun e => hwf.exists_misaligned_of_load, fun env mem => hwf.initialState_isOk,
    fun options => ?_⟩
  rcases hwf.run_cases options with ⟨env, mem, behavior, hload, hrun⟩ | ⟨e, hload, hrun⟩
  · have haligned := hwf.load_isOk_iff.1 ⟨env, mem, hload⟩
    rw [hrun]
    exact ⟨⟨fun _ => haligned, fun _ => ⟨behavior, rfl⟩⟩, nofun⟩
  · have haligned : ¬ p.ContentsAligned := by
      rw [← hwf.load_isOk_iff, hload]
      simp
    rw [hrun]
    refine ⟨⟨nofun, fun h => absurd h haligned⟩, fun e' he => ?_⟩
    cases he
    exact hwf.exists_misaligned_of_load hload

/-- A program with one variable, which returns at once. -/
def withVariable (init : List InitialData) : Program where
  globals := [
    ("a", .variable init),
    ("main", .function (.internal {
      signature := .main
      code := #[.op (.intConst 0#32) [] Convention.standard.intResult, .ret]
      frameSize := 8#32
      stackSize := 0#32
      linkSlot := 0#32
      returnSlot := 1#32 }))]
  entry := "main"

/-- A byte, three zero bytes and a word are aligned, so a program with such a variable is loaded and
run. -/
theorem checked_loads_aligned :
    (withVariable [.int8 1#32, .space 3#32, .int32 2#32]).WellFormed .standard ∧
      ∃ behavior, (withVariable [.int8 1#32, .space 3#32, .int32 2#32]).run {} = .ok behavior := by
  have hwf : (withVariable [.int8 1#32, .space 3#32, .int32 2#32]).WellFormed .standard := by
    decide +kernel
  refine ⟨hwf, ((checked_loads hwf).2.2.2 {}).1.2 fun name init hmem => ?_⟩
  simp only [withVariable, List.mem_cons, Prod.mk.injEq, Global.variable.injEq, reduceCtorEq,
    and_false, List.not_mem_nil, or_false] at hmem
  rw [hmem.2]
  decide

/-- Without the zero bytes the word lies at offset one. Such a program is well formed, but it is not
loaded. -/
theorem load_misaligned_of_wellFormed :
    (withVariable [.int8 1#32, .int32 2#32]).WellFormed .standard ∧
      (withVariable [.int8 1#32, .int32 2#32]).load = .error (.memory (.misaligned .int32 1 1)) ∧
      (withVariable [.int8 1#32, .int32 2#32]).run {} =
        .error (.memory (.misaligned .int32 1 1)) :=
  ⟨by decide +kernel, rfl, rfl⟩

end Program

end RegisterMachine
