import RegisterMachine.Assembly
import RegisterMachine.Proofs.Results
import Mathlib.Control.Monad.Basic

/-! # Texts one after the other

Lines are read from the first to the last, and what has been read of a program is all that a line
may depend on. So a text that is complete can be followed by any other, which is then read as it
would be read alone; and what is wrong with a line is known from the lines up to it.

* `EndsLine`, `splitLines_append` — texts that others may follow.
* `lastEntryName?` — the entry point that the lines of a text declare last.
* `Draft.addLines_append` — reading lines one after the other.
* `Draft.behind`, `Draft.addLines_behind` — reading lines behind those of a complete program.
* `Draft.exists_take_of_addLines_eq_error` — the first line that is wrong.
* `Program.ofText_append` — reading a text behind another.
-/

namespace RegisterMachine

/-! ## Lines of text -/

/-- A text that is empty or ends with a line break. -/
def EndsLine (text : String) : Prop := text = "" ∨ ∃ s, text = s ++ "\n"

/-- The lines before a line break do not depend on what follows it. -/
theorem linesFrom_append_break (line cs rest : List Char) :
    linesFrom line (cs ++ '\n' :: rest) = linesFrom line (cs ++ ['\n']) ++ linesFrom [] rest := by
  induction cs generalizing line with
  | nil => simp [linesFrom]
  | cons c cs ih =>
    rw [List.cons_append, List.cons_append]
    by_cases hc : c = '\n'
    · subst hc
      rw [linesFrom, linesFrom, ih, List.cons_append]
    · rw [linesFrom, linesFrom, ih]
      · exact hc
      · exact hc

/-- The lines of a text that follows another come after the lines of the other. -/
theorem splitLines_append {a : String} (ha : EndsLine a) (b : String) :
    splitLines (a ++ b) = splitLines a ++ splitLines b := by
  rcases ha with rfl | ⟨s, rfl⟩
  · rfl
  · have hlines := linesFrom_append_break [] s.toList b.toList
    simpa [splitLines, String.toList_append] using hlines

/-! ## Entry points -/

/-- What a line of text says. -/
def readLine (line : List Char) : Except Fault (Option Line) := tokenize line >>= Line.read

/-- The name in a line of text that declares the entry point. -/
def entryOfLine? (line : List Char) : Option String :=
  match readLine line with
  | .ok (some (.entry name)) => some name
  | _ => none

/-- The name in the last of several lines that declares the entry point. -/
def lastEntryName? (lines : List (List Char)) : Option String :=
  (lines.filterMap entryOfLine?).getLast?

/-- Of an entry point that was declared before and those in lines the last one counts. -/
theorem getD_lastEntryName?_cons (line : List Char) (lines : List (List Char)) (entry : String) :
    (lastEntryName? (line :: lines)).getD entry =
      (lastEntryName? lines).getD ((entryOfLine? line).getD entry) := by
  rw [lastEntryName?, lastEntryName?, List.filterMap_cons]
  cases entryOfLine? line with
  | none => rfl
  | some name =>
    rw [Option.getD_some, List.getLast?_cons]
    cases (lines.filterMap entryOfLine?).getLast? <;> rfl

namespace Draft

variable {d d' : Draft} {n : Nat} {e : AssemblyError} {lines lines' : List (List Char)}

/-! ## Lines one after the other -/

/-- A line of text adds what it says. -/
theorem addText_eq (d : Draft) (n : Nat) (line : List Char) :
    d.addText n line = readLine line >>= fun l? =>
      match l? with
      | some l => d.add n l
      | none => .ok d := by
  rw [addText, readLine, bind_assoc]
  rfl

/-- Lines are read after those that stand before them. -/
theorem addLines_append (d : Draft) (n : Nat) (lines lines' : List (List Char)) :
    d.addLines n (lines ++ lines') =
      d.addLines n lines >>= fun d' => d'.addLines (n + lines.length) lines' := by
  induction lines generalizing d n with
  | nil => rfl
  | cons line lines ih =>
    rw [List.cons_append, addLines, addLines]
    cases d.addText n line with
    | error fault => rfl
    | ok d' =>
      rw [List.length_cons, Nat.add_comm lines.length, ← Nat.add_assoc]
      exact ih d' (n + 1)

/-- Lines behind one that is wrong are not looked at. -/
theorem addLines_append_of_error (h : d.addLines n lines = .error e) :
    d.addLines n (lines ++ lines') = .error e := by
  rw [addLines_append, h]
  rfl

/-- The first lines of several that can be read can be read. -/
theorem exists_addLines_of_append (h : d.addLines n (lines ++ lines') = .ok d') :
    ∃ d₁, d.addLines n lines = .ok d₁ := by
  rw [addLines_append] at h
  obtain ⟨d₁, hd₁, -⟩ := bind_eq_ok_iff.1 h
  exact ⟨d₁, hd₁⟩

/-- If lines cannot be read, one of them is the first that is wrong: those before it can be read,
and the error is the same without those behind it. -/
theorem exists_take_of_addLines_eq_error (h : d.addLines n lines = .error e) :
    ∃ k < lines.length, e.line = n + k ∧ (∃ d', d.addLines n (lines.take k) = .ok d') ∧
      d.addLines n (lines.take (k + 1)) = .error e := by
  induction lines generalizing d n with
  | nil => cases h
  | cons line lines ih =>
    rw [addLines] at h
    cases hline : d.addText n line with
    | error fault =>
      -- The first line is wrong.
      rw [hline] at h
      cases h
      refine ⟨0, Nat.succ_pos _, rfl, ⟨d, rfl⟩, ?_⟩
      rw [List.take_succ_cons, addLines, hline]
    | ok d₁ =>
      rw [hline] at h
      obtain ⟨k, hk, heq, ⟨d', hd'⟩, herror⟩ := ih h
      refine ⟨k + 1, Nat.succ_lt_succ hk, by omega, ⟨d', ?_⟩, ?_⟩
      · rw [List.take_succ_cons, addLines, hline]
        exact hd'
      · rw [List.take_succ_cons, addLines, hline]
        exact herror

/-! ## Lines behind a program -/

/-- The draft of the same lines behind others: those have declared globals and an entry point, and
their number is added to that of each line. -/
def behind (d : Draft) (globals : Array (String × Global)) (entry : String) (count : Nat) : Draft :=
  ⟨globals ++ d.globals, entry, d.open?.map fun f => { f with line := f.line + count }⟩

variable {globals : Array (String × Global)} {entry : String} {count : Nat}

/-- What a line says is added behind other lines as it is added alone, and an entry point takes the
place of the one that was declared before. -/
theorem add_behind (d : Draft) (n : Nat) (l : Line) :
    (d.behind globals entry count).add (n + count) l =
      (d.add n l).map fun d' => d'.behind globals
        (match l with
          | .entry name => name
          | _ => entry) count := by
  obtain ⟨globals', entry', open?⟩ := d
  cases open? with
  | none => cases l <;> simp [behind, add, Except.map]
  | some f => cases l <;> simp [behind, add, Except.map]

/-- A line of text is read behind other lines as it is read alone. -/
theorem addText_behind (d : Draft) (n : Nat) (line : List Char) :
    (d.behind globals entry count).addText (n + count) line =
      (d.addText n line).map fun d' =>
        d'.behind globals ((entryOfLine? line).getD entry) count := by
  rw [addText_eq, addText_eq, entryOfLine?]
  cases readLine line with
  | error fault => rfl
  | ok l? =>
    cases l? with
    | none => rfl
    | some l =>
      cases l <;> exact add_behind d n _

/-- Lines are read behind other lines as they are read alone. -/
theorem addLines_behind (d : Draft) (n : Nat) (lines : List (List Char)) :
    (d.behind globals entry count).addLines (n + count) lines =
      ((d.addLines n lines).map fun d' =>
        d'.behind globals ((lastEntryName? lines).getD entry) count).mapError
          fun e => ⟨e.line + count, e.fault⟩ := by
  induction lines generalizing d n entry with
  | nil => rfl
  | cons line lines ih =>
    rw [addLines, addLines, addText_behind]
    cases d.addText n line with
    | error fault => rfl
    | ok d' =>
      have hnext := @ih ((entryOfLine? line).getD entry) d' (n + 1)
      rw [← getD_lastEntryName?_cons, Nat.add_right_comm] at hnext
      exact hnext

/-- A draft is finished behind other lines as it is finished alone. -/
theorem finish_behind (d : Draft) :
    (d.behind globals entry count).finish =
      (d.finish.map fun q => ⟨globals.toList ++ q.globals, entry⟩).mapError
        fun e => ⟨e.line + count, e.fault⟩ := by
  obtain ⟨globals', entry', open?⟩ := d
  cases open? with
  | none => simp [behind, finish, Except.map]
  | some f => rfl

/-- A draft is complete, or the end of its open function is missing. -/
theorem finish_cases (d : Draft) :
    (∃ p, d.finish = .ok p) ∨ ∃ e name, d.finish = .error e ∧
      e.fault = .unterminatedFunction name := by
  obtain ⟨globals, entry, open?⟩ := d
  cases open? with
  | none => exact .inl ⟨_, rfl⟩
  | some f => exact .inr ⟨_, _, rfl, rfl⟩

end Draft

namespace Program

variable {a b t : String} {p : Program} {e : AssemblyError}

/-! ## Texts -/

/-- What is wrong with a text, other than that its last function has no end, is wrong with one of
its lines. -/
theorem addLines_of_ofText_eq_error (h : ofText t = .error e)
    (hfault : ∀ name, e.fault ≠ .unterminatedFunction name) :
    Draft.empty.addLines 1 (splitLines t) = .error e := by
  rcases bind_eq_error_iff.1 h with h | ⟨d, -, h⟩
  · exact h
  · rcases d.finish_cases with ⟨p, hp⟩ | ⟨e', name, he', hname⟩
    · rw [hp] at h
      cases h
    · rw [he'] at h
      cases h
      exact absurd hname (hfault name)

/-- The lines of a text that is read make a draft with the globals and the entry point of the
program and no open function: it is the empty draft behind these globals. -/
theorem addLines_of_ofText_eq_ok (h : ofText t = .ok p) (count : Nat) :
    Draft.empty.addLines 1 (splitLines t) =
      .ok (Draft.empty.behind p.globals.toArray p.entry count) := by
  obtain ⟨⟨globals, entry, open?⟩, hd, hp⟩ := bind_eq_ok_iff.1 h
  cases open? with
  | some f => cases hp
  | none =>
    cases hp
    rw [hd]
    simp [Draft.behind, Draft.empty]

/-- A text is wrong if its first lines are, whatever follows them. -/
theorem ofText_of_addLines_take {n : Nat}
    (h : Draft.empty.addLines 1 ((splitLines t).take n) = .error e) : ofText t = .error e := by
  rw [ofText, ← List.take_append_drop n (splitLines t), Draft.addLines_append_of_error h]
  rfl

/-- If lines can be read, then a text of the first of them lacks the end of its last function or is
read. -/
theorem exists_unterminated_of_take {lines : List (List Char)} {d : Draft} {n : Nat}
    (hlines : Draft.empty.addLines 1 lines = .ok d) (ht : splitLines t = lines.take n)
    (h : ofText t = .error e) : ∃ name, e.fault = .unterminatedFunction name := by
  rw [← List.take_append_drop n lines] at hlines
  obtain ⟨d₁, hd₁⟩ := Draft.exists_addLines_of_append hlines
  rw [ofText, ht, hd₁] at h
  rcases d₁.finish_cases with ⟨p, hp⟩ | ⟨e₁, name, he₁, hname⟩
  · cases h.symm.trans hp
  · cases h.symm.trans he₁
    exact ⟨name, hname⟩

/-- Reading is compositional and stops at the first line that is wrong.

* An error in a text that ends with a line break remains the error whatever text follows, unless it
  says that the last function has no end.
* Behind a text that is read, any other is read as it is read alone: the globals come after those
  before, the last entry point counts, and an error is found so many lines later as the first text
  has.
* An error other than a missing end is known from the lines up to the one it names, and no lines
  before this one have such an error. -/
theorem ofText_append (ha : EndsLine a) (b : String) :
    (∀ e, ofText a = .error e → (∀ name, e.fault ≠ .unterminatedFunction name) →
      ofText (a ++ b) = .error e) ∧
    (∀ p, ofText a = .ok p →
      ofText (a ++ b) =
        ((ofText b).map fun q =>
          ⟨p.globals ++ q.globals, (lastEntryName? (splitLines b)).getD p.entry⟩).mapError
            fun e => ⟨e.line + (splitLines a).length, e.fault⟩) ∧
    ∀ t e, ofText t = .error e → (∀ name, e.fault ≠ .unterminatedFunction name) →
      (0 < e.line ∧ e.line ≤ (splitLines t).length) ∧
      (∀ t', (splitLines t').take e.line = (splitLines t).take e.line → ofText t' = .error e) ∧
      ∀ t' k, k < e.line → splitLines t' = (splitLines t).take k →
        ∀ e', ofText t' = .error e' → ∃ name, e'.fault = .unterminatedFunction name := by
  refine ⟨fun e herror hfault => ?_, fun p hok => ?_, fun t e herror hfault => ?_⟩
  · rw [ofText, splitLines_append ha,
      Draft.addLines_append_of_error (addLines_of_ofText_eq_error herror hfault)]
    rfl
  · rw [ofText, splitLines_append ha, Draft.addLines_append,
      addLines_of_ofText_eq_ok hok (splitLines a).length]
    show (Draft.addLines _ (1 + (splitLines a).length) _ >>= _) = _
    rw [Draft.addLines_behind, ofText]
    cases Draft.empty.addLines 1 (splitLines b) with
    | error e => rfl
    | ok d =>
      exact Draft.finish_behind d
  · obtain ⟨k, hk, hline, ⟨d, hd⟩, htake⟩ :=
      Draft.exists_take_of_addLines_eq_error (addLines_of_ofText_eq_error herror hfault)
    have hnumber : e.line = k + 1 := by omega
    rw [hnumber]
    refine ⟨⟨Nat.succ_pos k, hk⟩, fun t' ht' => ?_, fun t' j hj ht' e' he' => ?_⟩
    · exact ofText_of_addLines_take (ht'.symm ▸ htake)
    · -- The lines before the first one that is wrong can be read.
      have hfirst : ((splitLines t).take k).take j = (splitLines t).take j := by
        rw [List.take_take, Nat.min_eq_left (Nat.le_of_lt_succ hj)]
      exact exists_unterminated_of_take hd (ht'.trans hfirst.symm) he'

/-- Behind a text with a variable and an entry point: a text with both, and one with an instruction
outside of a function in its second line. The text with the wrong line is wrong whatever follows its
first two lines. -/
theorem ofText_append_variables :
    EndsLine "entry x\nvar x int8 1\n" ∧
    ofText "entry x\nvar x int8 1\n" = .ok ⟨[("x", .variable [.int8 1#32])], "x"⟩ ∧
    ofText ("entry x\nvar x int8 1\n" ++ "ENTRY y ; last\nvar y") =
      .ok ⟨[("x", .variable [.int8 1#32]), ("y", .variable [])], "y"⟩ ∧
    ofText ("entry x\nvar x int8 1\n" ++ "\nreturn\n") = .error ⟨4, .outsideFunction⟩ ∧
    EndsLine "\nreturn\n" ∧ ofText "\nreturn\n" = .error ⟨2, .outsideFunction⟩ ∧
    ofText ("\nreturn\n" ++ "(") = .error ⟨2, .outsideFunction⟩ ∧
    ofText "; nothing\nreturn (" = .error ⟨2, .unexpected "("⟩ ∧
    ofText "; nothing\nreturn (\n end" = .error ⟨2, .unexpected "("⟩ := by
  have hends : EndsLine "entry x\nvar x int8 1\n" := .inr ⟨"entry x\nvar x int8 1", rfl⟩
  have hends' : EndsLine "\nreturn\n" := .inr ⟨"\nreturn", rfl⟩
  have hx : ofText "entry x\nvar x int8 1\n" = .ok ⟨[("x", .variable [.int8 1#32])], "x"⟩ := by
    decide +kernel
  have hy : ofText "ENTRY y ; last\nvar y" = .ok ⟨[("y", .variable [])], "y"⟩ := by
    decide +kernel
  have hlast : lastEntryName? (splitLines "ENTRY y ; last\nvar y") = some "y" := by decide +kernel
  have hreturn : ofText "\nreturn\n" = .error ⟨2, .outsideFunction⟩ := by decide +kernel
  have hparen : ofText "; nothing\nreturn (" = .error ⟨2, .unexpected "("⟩ := by decide +kernel
  have hcount : (splitLines "entry x\nvar x int8 1\n").length = 2 := by decide +kernel
  refine ⟨hends, hx, ?_, ?_, hends', hreturn, ?_, hparen, ?_⟩
  · rw [(ofText_append hends _).2.1 _ hx, hy, hlast]
    rfl
  · rw [(ofText_append hends _).2.1 _ hx, hreturn, hcount]
    rfl
  · exact (ofText_append hends' _).1 _ hreturn fun name => Fault.noConfusion
  · exact ((ofText_append hends "").2.2 _ _ hparen fun name => Fault.noConfusion).2.1 _
      (by decide +kernel)

end Program

end RegisterMachine
