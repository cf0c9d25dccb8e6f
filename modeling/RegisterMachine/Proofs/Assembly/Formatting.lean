import RegisterMachine.Proofs.Machine.Quieting

/-! # What formatting keeps

To format a program is to write its canonical text. The program that is read from this text is the
quieted one: a not-a-number with a minus sign has lost the sign. Everything else is kept, so that
only a run that looks at such a not-a-number can tell the two programs apart.

* `Program.doubles`, `Program.quieted_eq_self_iff` — the constants of a program, and which of them
  quieting changes.
* `Program.run_quieted` — quieted programs are run in the same way, as long as they do not notice.
* `Program.formatting_preserves` — the program that is read from the canonical text.
* `Program.run_formatted_ne` — a program that notices.
-/

namespace RegisterMachine

/-! ## Constants -/

/-- Quieting keeps a double, unless it is a not-a-number and not the one of the canonical text. -/
theorem Double.quieted_eq_self_iff {x : Double} :
    x.quieted = x ↔ (x.isNaN = true → x = .ofCode false BinaryFormat.binary64.quietNaN) := by
  cases h : x.isNaN with
  | true => simp only [quieted_of_isNaN h, forall_const, eq_comm]
  | false => simp [quieted_of_not_isNaN h]

/-- The double that an item of initial contents holds, if it holds one. -/
def InitialData.doubles : InitialData → List Double
  | .float32 x | .float64 x => [x]
  | _ => []

/-- The double that an instruction has as a constant, if it has one. -/
def Instruction.doubles : Instruction → List Double
  | .op (.floatConst x) _ _ => [x]
  | _ => []

/-- The doubles in the definition of a global. -/
def Global.doubles : Global → List Double
  | .variable init => init.flatMap InitialData.doubles
  | .function (.internal f) => f.code.toList.flatMap Instruction.doubles
  | .function (.external _) => []

/-- The doubles in a program. -/
def Program.doubles (p : Program) : List Double := p.globals.flatMap fun g => g.2.doubles

/-- A list is kept by a function that keeps its members. -/
theorem map_eq_self_iff {α : Type} {f : α → α} {l : List α} : l.map f = l ↔ ∀ a ∈ l, f a = a := by
  conv_lhs => rw [← List.map_id l, List.map_map]
  exact List.map_inj_left

/-- Quieting keeps an item if it keeps its double. -/
theorem InitialData.quieted_eq_self_iff {item : InitialData} :
    item.quieted = item ↔ ∀ x ∈ item.doubles, x.quieted = x := by
  cases item <;> simp [quieted, doubles]

/-- Quieting keeps an instruction if it keeps its constant. -/
theorem Instruction.quieted_eq_self_iff {i : Instruction} :
    i.quieted = i ↔ ∀ x ∈ i.doubles, x.quieted = x := by
  cases i with
  | op op args dst => cases op <;> simp [quieted, Operation.quieted, doubles]
  | _ => simp [quieted, doubles]

/-- Quieting keeps a global if it keeps all its doubles. -/
theorem Global.quieted_eq_self_iff {g : Global} :
    g.quieted = g ↔ ∀ x ∈ g.doubles, x.quieted = x := by
  cases g with
  | «variable» init =>
    simp only [quieted, doubles, Global.variable.injEq, map_eq_self_iff,
      InitialData.quieted_eq_self_iff, List.forall_mem_flatMap]
  | function d =>
    cases d with
    | external ef => simp [quieted, doubles]
    | internal f =>
      have hcode : f.quieted = f ↔ f.code.toList.map Instruction.quieted = f.code.toList := by
        rw [← Array.toList_map, Array.toList_inj]
        exact ⟨congrArg Function.code, fun h => by rw [Function.quieted, h]⟩
      simp only [quieted, doubles, Global.function.injEq, FunctionDef.internal.injEq, hcode,
        map_eq_self_iff, Instruction.quieted_eq_self_iff, List.forall_mem_flatMap]

namespace Program

/-- Quieting keeps a program if it keeps all its doubles. -/
theorem quieted_eq_self_iff {p : Program} : p.quieted = p ↔ ∀ x ∈ p.doubles, x.quieted = x := by
  obtain ⟨globals, entry⟩ := p
  simp only [quieted, doubles, Program.mk.injEq, and_true, map_eq_self_iff, Prod.ext_iff,
    true_and, Global.quieted_eq_self_iff, List.forall_mem_flatMap]

/-! ## Runs -/

/-- The environment of a quieted program is quieted. -/
theorem quiets_environment (p : Program) : p.environment.Quiets p.quieted.environment :=
  ⟨p.symbol?_quieted, p.function?_quieted⟩

/-- Executions of a program and of the quieted program begin at the same place, or not at all for
the same reason. -/
theorem execution_quieted (p : Program) (conv : Convention) :
    Corresponds id (Execution.Quiets p.ChangedAt) (p.execution conv)
      (p.quieted.execution conv) := by
  have henv := p.quiets_environment
  have hload := p.load_quieted
  unfold execution
  generalize p.load = x, p.quieted.load = x' at hload
  cases hload with
  | error e => exact .error e
  | @ok r r' h =>
    obtain ⟨env, mem⟩ := r
    obtain ⟨env', mem'⟩ := r'
    obtain ⟨henv₁, henv₂, hmem⟩ := h
    obtain rfl : env = p.environment := (Prod.mk.inj henv₁).1
    obtain rfl : env' = p.quieted.environment := (Prod.mk.inj henv₂).1
    -- The first state depends on the block of the entry point and on whether it is a function.
    have hentry : p.quieted.entry = p.entry := rfl
    simp only [Environment.initialState, henv.symbol?, henv.isSome_function?, hentry]
    cases p.environment.symbol? p.entry with
    | none => exact .error (LoadError.missingEntry p.entry)
    | some b =>
      by_cases hf : (p.environment.function? b).isSome = true
      · simp only [if_pos hf]
        exact .ok ⟨⟨henv, rfl, rfl, ReturnAddresses.codeOffset_ignoresConstants, rfl⟩, rfl,
          .live ⟨rfl, rfl, rfl, hmem⟩, rfl⟩
      · simp only [if_neg hf]
        exact .error (LoadError.entryNotFunction p.entry)

/-- The quieted program is not run for the reason for which the program is not run. -/
theorem run_quieted_corresponds (p : Program) (options : RunOptions) :
    Corresponds id (fun _ _ => True) (p.run options) (p.quieted.run options) :=
  (p.execution_quieted options.convention).map fun _ _ _ => trivial

/-- The quieted program has the same behavior if the program does not notice. -/
theorem run_quieted {p : Program} {options : RunOptions} {e : Execution Unit}
    (he : p.execution options.convention = .ok e)
    (hnotices : ¬ e.Notices p.ChangedAt options.fuel) : p.quieted.run options = p.run options := by
  have hboth := p.execution_quieted options.convention
  rw [he] at hboth
  rw [run, run, he]
  generalize p.quieted.execution options.convention = x at hboth
  cases hboth with
  | ok h => exact congrArg Except.ok (h.run hnotices)

/-! ## The canonical text -/

/-- Formatting keeps the meaning of a program, but for not-a-numbers with a sign. If a text is read
as a program, then a program is read from its canonical text, and of this program it is known that

* it is loaded if the first program is and refused for the same reason if not, and the two memories
  have the same blocks and agree on all bytes, except those of items that hold a not-a-number other
  than that of the canonical text;
* it is run if the first program is, and otherwise refused for the same reason;
* it has the same behavior as long as the first program makes no such constant and reads no such
  byte;
* it is the same program exactly if all not-a-numbers of the first program are that of the canonical
  text;
* in that case it has the same behavior with any options. -/
theorem formatting_preserves {text : String} {p : Program} (h : Program.ofText text = .ok p) :
    ∃ q, Program.ofText p.toText = .ok q ∧
      Corresponds id (fun r r' => r.1.Quiets r'.1 ∧ r.2.AgreeOutside p.ChangedAt r'.2) p.load
        q.load ∧
      (∀ options, Corresponds id (fun _ _ => True) (p.run options) (q.run options)) ∧
      (∀ options e, p.execution options.convention = .ok e →
        ¬ e.Notices p.ChangedAt options.fuel → q.run options = p.run options) ∧
      (q = p ↔ ∀ x ∈ p.doubles, x.isNaN = true →
        x = .ofCode false BinaryFormat.binary64.quietNaN) ∧
      ((∀ x ∈ p.doubles, x.isNaN = true → x = .ofCode false BinaryFormat.binary64.quietNaN) →
        ∀ options, q.run options = p.run options) := by
  have hsame : p.quieted = p ↔ ∀ x ∈ p.doubles, x.isNaN = true →
      x = .ofCode false BinaryFormat.binary64.quietNaN := by
    simp only [quieted_eq_self_iff, Double.quieted_eq_self_iff]
  refine ⟨p.quieted, ofText_toText (writable_of_ofText h), ?_, p.run_quieted_corresponds,
    fun options e he hnotices => run_quieted he hnotices, hsame, fun hx options => ?_⟩
  · refine p.load_quieted.imp fun r r' ⟨henv, henv', hmem⟩ => ⟨?_, hmem⟩
    rw [henv, henv']
    exact p.quiets_environment
  · rw [hsame.2 hx]

/-- A text of which the program reads the word with the sign of a double. -/
def signWordText (number : String) : String :=
  "var x float64 " ++ number ++ "\n" ++
    "func main () -> int frame 8 stack 0 link 0 retaddr 1\nload int32 r0 global x 4\nreturn\nend"

/-- The program of this text. -/
def signWord (x : Double) : Program :=
  ⟨[("x", .variable [.float64 x]),
    ("main", .function (.internal ⟨.main,
      #[.load .int32 (.global "x" 4#32) [] Convention.standard.intResult, .ret],
      8#32, 0#32, 0#32, 1#32⟩))], "main"⟩

/-- With a not-a-number without sign the program is the one that is read from its canonical text. -/
theorem formatting_preserves_signWord :
    Program.ofText (signWordText "nan") =
        .ok (signWord (.ofCode false BinaryFormat.binary64.quietNaN)) ∧
      ∃ q, Program.ofText (signWord (.ofCode false BinaryFormat.binary64.quietNaN)).toText = .ok q ∧
        q = signWord (.ofCode false BinaryFormat.binary64.quietNaN) ∧
        ∀ options, q.run options =
          (signWord (.ofCode false BinaryFormat.binary64.quietNaN)).run options := by
  have hread : (Program.ofText (signWordText "nan")).toOption =
      some (signWord (.ofCode false BinaryFormat.binary64.quietNaN)) := by decide +kernel
  have htext := toOption_eq_some_iff.1 hread
  obtain ⟨q, hq, -, -, -, hsame, hrun⟩ := formatting_preserves htext
  have hdoubles : ∀ x ∈ (signWord (.ofCode false BinaryFormat.binary64.quietNaN)).doubles,
      x.isNaN = true → x = .ofCode false BinaryFormat.binary64.quietNaN := by decide +kernel
  exact ⟨htext, q, hq, hsame.2 hdoubles, hrun hdoubles⟩

/-- With a not-a-number with a sign it is not: the program ends with another exit code than the one
that is read from its canonical text. -/
theorem run_formatted_ne :
    Program.ofText (signWordText "-nan") =
        .ok (signWord (.ofCode true BinaryFormat.binary64.quietNaN)) ∧
      (signWord (.ofCode true BinaryFormat.binary64.quietNaN)).run ⟨100, .standard⟩ =
        .ok (.terminates [] (BitVec.ofInt 32 (-524288))) ∧
      ∃ q, Program.ofText (signWord (.ofCode true BinaryFormat.binary64.quietNaN)).toText = .ok q ∧
        q.run ⟨100, .standard⟩ = .ok (.terminates [] 2146959360#32) := by
  have hread : (Program.ofText (signWordText "-nan")).toOption =
      some (signWord (.ofCode true BinaryFormat.binary64.quietNaN)) := by decide +kernel
  have htext := toOption_eq_some_iff.1 hread
  have hrun : ((signWord (.ofCode true BinaryFormat.binary64.quietNaN)).run
      ⟨100, .standard⟩).toOption = some (.terminates [] (BitVec.ofInt 32 (-524288))) := by
    decide +kernel
  have hrun' : ((signWord (.ofCode true BinaryFormat.binary64.quietNaN)).quieted.run
      ⟨100, .standard⟩).toOption = some (.terminates [] 2146959360#32) := by
    decide +kernel
  exact ⟨htext, toOption_eq_some_iff.1 hrun, _, ofText_toText (writable_of_ofText htext),
    toOption_eq_some_iff.1 hrun'⟩

end Program

end RegisterMachine
