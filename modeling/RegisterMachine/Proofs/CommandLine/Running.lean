import RegisterMachine.Proofs.CommandLine.Flags
import RegisterMachine.Proofs.CommandLine.Wording
import RegisterMachine.Proofs.Machine.Budget

/-! # Running a program from the command line

The command line does not ask for the behavior of a program: it advances an execution by itself and
prints the events of each step once the step has been taken. What it leaves behind is still what the
behavior calls for, with the number of steps after which the run ended.

* `Report.ofBehavior` — the report that a behavior calls for.
* `Report.ofExecution_start_of_behaves` — printing while an execution is advanced leaves this report.
* `Program.Reports` — what is to be reported of a program that is checked and run.
* `ToRun`, `NothingToRun` — what the arguments and the files ask for.
* `respond_run` — what the command line leaves behind when it is asked to run a program.
-/

namespace RegisterMachine

/-! ## Printing while running -/

namespace Report

variable {σ : Type} {m : Machine σ} {c c' : Configuration σ} {host : σ} {t : Transition}
  {k n fuel : Nat} {events events' : List Event} {out : String} {behavior : Behavior}

/-- The lines of events that follow on events stand behind their lines. -/
theorem eventLines_append :
    eventLines (events ++ events') = eventLines events ++ eventLines events' := by
  simp [eventLines]

/-- The report that a behavior calls for, given the number of successful steps. -/
def ofBehavior (steps : Nat) : Behavior → Report
  | .terminates trace code => success (eventLines trace ++ "exit " ++ toString code.toInt ++ "\n")
  | .goesWrong trace reason => failure (eventLines trace) (.wrong steps reason)
  | .diverges trace => failure (eventLines trace) (.outOfFuel steps)

/-- The events of a step are printed behind what has been printed before. -/
theorem ofExecution_succ_reached (h : m.step c.state c.host = (.ok t, host)) :
    ofExecution (fuel + 1) out (.reached m c events n) =
      ofExecution fuel (out ++ eventLines t.events)
        (.reached m ⟨t.state, host⟩ (events ++ t.events) (n + 1)) := by
  have hfinal := Machine.isFinal_eq_false_of_step h
  rw [ofExecution, Execution.exitCode_reached, Machine.exitCode_eq_none_iff.2 hfinal,
    Execution.step_reached h]

/-- While steps are taken their events are printed. -/
theorem ofExecution_start_of_runs (h : m.Runs c n events c') :
    ofExecution (n + fuel) "" (.start m c.host c.state) =
      ofExecution fuel (eventLines events) (.reached m c' events n) := by
  induction h generalizing fuel with
  | refl => rw [Nat.zero_add, Execution.start_eq_reached]; rfl
  | next _ step ih =>
    rw [Nat.add_assoc, Nat.add_comm 1, ih, ofExecution_succ_reached step, eventLines_append]

/-- Printing while an execution is advanced leaves the report that its behavior calls for. -/
theorem ofExecution_start_of_behaves (h : m.Behaves c fuel k behavior) :
    ofExecution fuel "" (.start m c.host c.state) = ofBehavior k behavior := by
  cases h with
  | exits run within exit =>
    rw [← Nat.add_sub_of_le within, ofExecution_start_of_runs run, ofExecution.eq_def,
      Execution.exitCode_reached, exit]
    rfl
  | noCode run within exit =>
    rw [← Nat.add_sub_of_le within, ofExecution_start_of_runs run, ofExecution.eq_def,
      Execution.exitCode_reached, exit]
    rfl
  | @stuck k events _ _ run within goesOn fails =>
    obtain ⟨rest, rfl⟩ := Nat.exists_eq_add_of_lt within
    obtain ⟨host, hstep⟩ := Execution.step_reached_of_fails goesOn fails events k
    rw [Nat.add_assoc, ofExecution_start_of_runs run, ofExecution, Execution.exitCode_reached,
      Machine.exitCode_eq_none_iff.2 goesOn, hstep]
    rfl
  | outOfFuel run goesOn =>
    have hrun : ofExecution (k + 0) "" (.start m c.host c.state) = _ :=
      ofExecution_start_of_runs run
    rw [Nat.add_zero] at hrun
    rw [hrun, ofExecution, Execution.exitCode_reached, Machine.exitCode_eq_none_iff.2 goesOn]
    rfl

end Report

/-! ## What is to be reported -/

/-- The report of a program that is checked and run: it is rejected, or cannot be loaded, or has a
behavior. -/
inductive Program.Reports (p : Program) (options : RunOptions) : Report → Prop where
  /-- There are violations, each of which is printed in a line, in order. -/
  | rejected (illFormed : ¬ p.WellFormed options.convention) :
      Reports p options ⟨2, "", String.join
        ((p.violations options.convention).map fun v => "error: " ++ v.message ++ "\n")⟩
  /-- The program cannot be loaded or started. -/
  | notLoaded {e : LoadError} (wellFormed : p.WellFormed options.convention)
      (run : p.run options = .error e) :
      Reports p options ⟨3, "", "error: " ++ e.message ++ "\n"⟩
  /-- The run terminates. Its events are printed, each in a line, and then its exit code. -/
  | terminates {trace : List Event} {code : Word} {lines : String}
      (wellFormed : p.WellFormed options.convention)
      (run : p.run options = .ok (.terminates trace code)) (printed : Event.PrintedAs trace lines) :
      Reports p options ⟨0, lines ++ "exit " ++ toString code.toInt ++ "\n", ""⟩
  /-- The run goes wrong after a number of successful steps. Its events are printed, each in a line,
  and the reason is named. -/
  | goesWrong {trace : List Event} {reason : Stuck} {m : Machine Unit} {s : State} {k : Nat}
      {lines text : String} (wellFormed : p.WellFormed options.convention)
      (run : p.run options = .ok (.goesWrong trace reason))
      (start : p.execution options.convention = .ok (.start m () s))
      (steps : m.Behaves ⟨s, ()⟩ options.fuel k (.goesWrong trace reason))
      (printed : Event.PrintedAs trace lines) (named : reason.NamedBy text) :
      Reports p options
        ⟨3, lines, "error: went wrong after " ++ toString k ++ " steps: " ++ text ++ "\n"⟩
  /-- The run uses up its budget of steps. Its events are printed, each in a line. -/
  | diverges {trace : List Event} {lines : String} (wellFormed : p.WellFormed options.convention)
      (run : p.run options = .ok (.diverges trace)) (printed : Event.PrintedAs trace lines) :
      Reports p options
        ⟨4, lines, "error: out of fuel after " ++ toString options.fuel ++ " steps\n"⟩

/-- An execution of a program has not taken a step yet. -/
theorem Program.exists_start_of_execution {p : Program} {conv : Convention} {e : Execution Unit}
    (h : p.execution conv = .ok e) : ∃ m s, e = .start m () s := by
  unfold execution at h
  split at h
  · cases h
  · split at h
    · cases h
    · cases h
      exact ⟨_, _, rfl⟩

/-- A program that is well formed passes the check. -/
theorem Program.checked_of_wellFormed {p : Program} {conv : Convention} (h : p.WellFormed conv) :
    p.checked conv = .ok p := by
  unfold WellFormed at h
  rw [checked, h]

/-- A program that is not well formed is rejected with all its violations. -/
theorem Program.checked_of_not_wellFormed {p : Program} {conv : Convention}
    (h : ¬ p.WellFormed conv) : p.checked conv = .error (.rejected (p.violations conv)) := by
  unfold WellFormed at h
  rw [checked.eq_def]
  split
  · exact absurd (by assumption) h
  · rfl

/-- The report of a run on a text that is read as a program. -/
theorem Action.perform_run {p : Program} {options : RunOptions} {path text : String}
    (h : Program.ofText text = .ok p) :
    (Action.run options).perform path text =
      match p.checked options.convention with
      | .error f => .failure "" f
      | .ok p =>
        match p.execution options.convention with
        | .error e => .failure "" (.load e)
        | .ok e => .ofExecution options.fuel "" e := by
  rw [perform, h, mapError_ok]
  simp only [bind, Except.bind, onProgram, pure, Except.pure]
  cases p.checked options.convention with
  | error f => rfl
  | ok p => cases he : p.execution options.convention <;> simp only [he, mapError_ok, mapError_error]

/-- A program that is checked and run is reported as it should be. -/
theorem Action.reports_perform {p : Program} {options : RunOptions} {path text : String}
    (h : Program.ofText text = .ok p) :
    p.Reports options ((Action.run options).perform path text) := by
  rw [perform_run h]
  by_cases hwf : p.WellFormed options.convention
  · rw [Program.checked_of_wellFormed hwf]
    simp only
    cases he : p.execution options.convention with
    | error e => exact .notLoaded hwf (by rw [Program.run, he]; rfl)
    | ok e =>
      obtain ⟨m, s, rfl⟩ := Program.exists_start_of_execution he
      obtain ⟨k, behavior, hbehaves⟩ := m.exists_behaves ⟨s, ()⟩ options.fuel
      have hrun : p.run options = .ok behavior := by
        rw [Program.run, he]
        exact congrArg Except.ok (Execution.run_start_of_behaves hbehaves)
      have hreport := Report.ofExecution_start_of_behaves hbehaves
      simp only at hreport ⊢
      rw [hreport]
      cases behavior with
      | terminates trace code => exact .terminates hwf hrun (Event.printedAs_eventLines trace)
      | goesWrong trace reason =>
        exact .goesWrong hwf hrun he hbehaves (Event.printedAs_eventLines trace)
          reason.namedBy_message
      | diverges trace =>
        -- All steps of the budget have been taken.
        cases hbehaves
        exact .diverges hwf hrun (Event.printedAs_eventLines trace)
  · rw [Program.checked_of_not_wellFormed hwf]
    exact .rejected hwf

/-- The program of a report was checked: the report says so exactly if it is not well formed. -/
theorem Program.Reports.code_eq_two_iff {p : Program} {options : RunOptions} {report : Report}
    (h : p.Reports options report) : report.code = 2 ↔ ¬ p.WellFormed options.convention := by
  cases h with
  | rejected illFormed => exact iff_of_true rfl illFormed
  | notLoaded wellFormed | terminates wellFormed | goesWrong wellFormed | diverges wellFormed =>
    exact iff_of_false (by simp) fun h => h wellFormed

/-- No report of a program says that there is none. -/
theorem Program.Reports.code_ne_one {p : Program} {options : RunOptions} {report : Report}
    (h : p.Reports options report) : report.code ≠ 1 := by
  cases h <;> simp

/-! ## The command line -/

/-- A program to run: the arguments name a file that has its text, and flags that set options. -/
inductive ToRun (readFile : String → Id (Except String String)) :
    List String → RunOptions → Program → Prop where
  /-- The file and the flags are good. -/
  | intro {path text : String} {flags : List String} {options : RunOptions} {p : Program}
      (sets : RunOptions.Sets {} flags options) (read : (readFile path).run = .ok text)
      (program : Program.ofText text = .ok p) : ToRun readFile (path :: flags) options p

/-- Why there is no program to run. -/
inductive NothingToRun (readFile : String → Id (Except String String)) : List String → Prop where
  /-- No file is named. -/
  | noFile : NothingToRun readFile []
  /-- There is no such flag, or it has no value or a bad one. -/
  | badFlags {path : String} {flags : List String}
      (sets : ∀ options, ¬ RunOptions.Sets {} flags options) : NothingToRun readFile (path :: flags)
  /-- The file cannot be read. -/
  | unreadable {path cause : String} {flags : List String}
      (read : (readFile path).run = .error cause) : NothingToRun readFile (path :: flags)
  /-- The file has another text than that of a program. -/
  | noProgram {path text : String} {flags : List String} {e : AssemblyError}
      (read : (readFile path).run = .ok text) (program : Program.ofText text = .error e) :
      NothingToRun readFile (path :: flags)

variable {readFile : String → Id (Except String String)} {args : List String}
  {options : RunOptions} {p : Program}

/-- There is a program to run, or a reason why there is none. -/
theorem nothingToRun_or_toRun (readFile : String → Id (Except String String))
    (args : List String) : NothingToRun readFile args ∨ ∃ options p, ToRun readFile args options p := by
  cases args with
  | nil => exact .inl .noFile
  | cons path flags =>
    by_cases hflags : ∃ options, RunOptions.Sets {} flags options
    · obtain ⟨options, hsets⟩ := hflags
      cases hread : (readFile path).run with
      | error cause => exact .inl (.unreadable hread)
      | ok text =>
        cases htext : Program.ofText text with
        | error e => exact .inl (.noProgram hread htext)
        | ok p => exact .inr ⟨options, p, .intro hsets hread htext⟩
    · exact .inl (.badFlags (not_exists.1 hflags))

/-- The arguments of a run are a file name and flags. -/
theorem Command.ofArgs_run {path : String} {flags : List String} :
    Command.ofArgs ("run" :: path :: flags) =
      (RunOptions.withFlags {} flags).map fun options => .onFile (.run options) path := by
  have hword : ¬ ("run" = "--help" ∨ "run" = "-h" ∨ "run" = "help") := by decide
  have hverb : (Verb.all.find? fun v => v.name = "run") = some .run := by decide
  rw [ofArgs, if_neg hword, hverb]
  simp only [Verb.action]
  cases RunOptions.withFlags {} flags <;> rfl

/-- The report of a run: the flags are read before the file is. -/
theorem respond_run_cons {path : String} {flags : List String} :
    (respond readFile ("run" :: path :: flags)).run =
      match RunOptions.withFlags {} flags with
      | .error e => .failure "" (.usage e)
      | .ok options =>
        match (readFile path).run with
        | .error cause => .failure "" (.unreadable path cause)
        | .ok text => (Action.run options).perform path text := by
  rw [respond, Command.ofArgs_run]
  cases RunOptions.withFlags {} flags with
  | error e => rfl
  | ok options => cases hread : (readFile path).run <;> simp [Except.map, hread]

/-- Where there is nothing to run the exit code is 1, and nothing is printed but the reason. -/
theorem respond_of_nothingToRun (h : NothingToRun readFile args) :
    ∃ f, (respond readFile ("run" :: args)).run = .failure "" f ∧ f.exitCode = 1 := by
  cases h with
  | noFile => exact ⟨.usage (.missingFile .run), rfl, rfl⟩
  | @badFlags path flags sets =>
    rw [respond_run_cons]
    cases hflags : RunOptions.withFlags {} flags with
    | error e => exact ⟨.usage e, rfl, rfl⟩
    | ok options => exact absurd (RunOptions.withFlags_eq_ok_iff.1 hflags) (sets options)
  | @unreadable path cause flags read =>
    rw [respond_run_cons, read]
    cases RunOptions.withFlags {} flags with
    | error e => exact ⟨.usage e, rfl, rfl⟩
    | ok options => exact ⟨.unreadable path cause, rfl, rfl⟩
  | @noProgram path text flags e read program =>
    rw [respond_run_cons, read]
    cases RunOptions.withFlags {} flags with
    | error e => exact ⟨.usage e, rfl, rfl⟩
    | ok options => exact ⟨.assembly e, by simp only [Action.perform, program]; rfl, rfl⟩

/-- A program to run is checked and run. -/
theorem respond_of_toRun (h : ToRun readFile args options p) :
    p.Reports options (respond readFile ("run" :: args)).run := by
  cases h with
  | intro sets read program =>
    rw [respond_run_cons, RunOptions.withFlags_eq_ok_iff.2 sets, read]
    exact Action.reports_perform program

/-- What the command line leaves behind when it is asked to run a program, whatever the files hold:

* it exits with 1, and prints nothing on standard output, exactly if no file is named, a flag or its
  value is bad, the file cannot be read or its text is that of no program;
* otherwise it exits with 2 exactly if the program is not well formed under the convention that the
  flags have set;
* in all other cases, too, it reports what is to be reported of a program that is checked and run
  with the options that the flags have set. -/
theorem respond_run (readFile : String → Id (Except String String)) (args : List String) :
    ((respond readFile ("run" :: args)).run.code = 1 ↔ NothingToRun readFile args) ∧
    ((respond readFile ("run" :: args)).run.code = 1 →
      (respond readFile ("run" :: args)).run.out = "") ∧
    ((∃ options p, ToRun readFile args options p) ↔ ¬ NothingToRun readFile args) ∧
    ∀ options p, ToRun readFile args options p →
      ((respond readFile ("run" :: args)).run.code = 2 ↔ ¬ p.WellFormed options.convention) ∧
        p.Reports options (respond readFile ("run" :: args)).run := by
  have hexit : (respond readFile ("run" :: args)).run.code = 1 ↔ NothingToRun readFile args := by
    constructor
    · intro hcode
      rcases nothingToRun_or_toRun readFile args with h | ⟨options, p, h⟩
      · exact h
      · exact absurd hcode (respond_of_toRun h).code_ne_one
    · intro h
      obtain ⟨f, hreport, hcode⟩ := respond_of_nothingToRun h
      rw [hreport]
      exact hcode
  refine ⟨hexit, fun hcode => ?_, ⟨?_, ?_⟩, fun options p h => ?_⟩
  · obtain ⟨f, hreport, -⟩ := respond_of_nothingToRun (hexit.1 hcode)
    rw [hreport]
    rfl
  · rintro ⟨options, p, h⟩ hnothing
    exact (respond_of_toRun h).code_ne_one (hexit.2 hnothing)
  · exact (nothingToRun_or_toRun readFile args).resolve_left
  · exact ⟨(respond_of_toRun h).code_eq_two_iff, respond_of_toRun h⟩

end RegisterMachine
