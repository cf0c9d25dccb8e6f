import RegisterMachine.Assembly
import RegisterMachine.Convention
import RegisterMachine.Proofs.Assembly.Spelling

/-! # Reading texts that were written

The canonical text of a program that was read is read as the program again. The program that is read
first fixes everything but the lines of the text; from there on, texts and programs determine each
other, except that all doubles which are not a number are written the same.

* `Program.quieted` — one not-a-number for all of them.
* `Program.Writable` — programs whose lines are read where they are written.
* `Program.ofText_toText` — reading the canonical text of such a program.
* `Program.writable_of_ofText` — programs that were read are such programs.
* `Program.ofText_toText_of_ofText` — the round trip.
-/

namespace RegisterMachine

/-! ## Quieted programs -/

/-- The function with one not-a-number for all of them. -/
def Function.quieted (f : Function) : Function := { f with code := f.code.map Instruction.quieted }

/-- The global with one not-a-number for all of them. -/
def Global.quieted : Global → Global
  | .variable init => .variable (init.map .quieted)
  | .function (.internal f) => .function (.internal f.quieted)
  | .function (.external ef) => .function (.external ef)

/-- The program with one not-a-number for all of them. All else stays as it is: the entry point, the
names of the globals and their order, signatures, sizes and all other constants. -/
def Program.quieted (p : Program) : Program :=
  ⟨p.globals.map fun g => (g.1, g.2.quieted), p.entry⟩

/-- What is read where a line was written is written the same. -/
theorem Line.toText_reread (l : Line) : l.reread.toText = l.toText := by
  have htokens := l.tokens_reread
  cases l with
  | «variable» name init =>
    show renderTokens (Line.variable name init).reread.tokens ++ "\n" = _
    rw [htokens]
    rfl
  | instruction i =>
    show "  " ++ renderTokens (Line.instruction i).reread.tokens ++ "\n" = _
    rw [htokens]
    rfl
  | entry | external | function | finish => rfl

/-- Quieting a global does not change its text. -/
theorem Global.toText_quieted (name : String) (g : Global) :
    (g.quieted.lines name).map Line.toText = (g.lines name).map Line.toText := by
  cases g with
  | «variable» init => rw [quieted, lines, lines, List.map_singleton, List.map_singleton,
      ← Line.toText_reread (.variable name init), Line.reread]
  | function d =>
    cases d with
    | external ef => rfl
    | internal f =>
      have hcode : (f.quieted.code.toList.map Line.instruction).map Line.toText =
          (f.code.toList.map Line.instruction).map Line.toText := by
        rw [Function.quieted, Array.toList_map, List.map_map, List.map_map, List.map_map]
        exact List.map_congr_left fun i _ => Line.toText_reread (.instruction i)
      have hhead : (Line.function name f.quieted).toText = (Line.function name f).toText := rfl
      rw [quieted, lines, lines, List.map_append, List.map_append, List.map_cons, hcode, hhead]
      rfl

/-- Quieting a program does not change its text. -/
theorem Program.toText_quieted (p : Program) : p.quieted.toText = p.toText := by
  have hglobals : (p.quieted.globals.flatMap fun g => g.2.lines g.1).map Line.toText =
      (p.globals.flatMap fun g => g.2.lines g.1).map Line.toText := by
    rw [quieted, List.flatMap_map, List.map_flatMap, List.map_flatMap]
    simp only [Global.toText_quieted]
  rw [toText, toText, lines, lines, List.map_cons, List.map_cons, hglobals, quieted]

/-! ## Lines of text -/

/-- A line break ends a line without one. -/
theorem linesFrom_append {line : List Char} (h : ∀ c ∈ line, c ≠ '\n') (start rest : List Char) :
    linesFrom start (line ++ '\n' :: rest) = (start.reverse ++ line) :: linesFrom [] rest := by
  induction line generalizing start with
  | nil =>
    rw [List.nil_append, List.append_nil]
    rfl
  | cons c line ih =>
    have hc : c ≠ '\n' := h c (List.mem_cons_self ..)
    have hstep : linesFrom start (c :: (line ++ '\n' :: rest)) =
        linesFrom (c :: start) (line ++ '\n' :: rest) := by
      rw [linesFrom]
      exact hc
    rw [List.cons_append, hstep, ih fun c' hc' => h c' (List.mem_cons_of_mem _ hc'),
      List.reverse_cons, List.append_assoc, List.singleton_append]

/-- Lines that end with line breaks, and have no others, are split. -/
theorem linesFrom_flatMap {lines : List (List Char)} (h : ∀ line ∈ lines, ∀ c ∈ line, c ≠ '\n') :
    linesFrom [] (lines.flatMap fun line => line ++ ['\n']) = lines := by
  induction lines with
  | nil => rfl
  | cons line lines ih =>
    rw [List.flatMap_cons, List.append_assoc, List.singleton_append,
      linesFrom_append (h line (List.mem_cons_self ..)),
      ih fun line' hline' => h line' (List.mem_cons_of_mem _ hline')]
    rfl

namespace Line

/-- The lines of the text of a line: a blank line stands before a function, and instructions are
indented. -/
def textLines (l : Line) : List (List Char) :=
  match l with
  | .function _ _ => [[], (renderTokens l.tokens).toList]
  | .instruction _ => [' ' :: ' ' :: (renderTokens l.tokens).toList]
  | _ => [(renderTokens l.tokens).toList]

/-- The text of a line consists of its lines. -/
theorem toList_toText (l : Line) :
    l.toText.toList = l.textLines.flatMap fun line => line ++ ['\n'] := by
  cases l <;> simp [toText, textLines]

/-- The lines of the text of a line have no line breaks. -/
theorem ne_newline_of_mem_textLines {l : Line} (h : l.Writable) {line : List Char}
    (hline : line ∈ l.textLines) {c : Char} (hc : c ∈ line) : c ≠ '\n' := by
  have htokens : ∀ c ∈ (renderTokens l.tokens).toList, c ≠ '\n' := by
    intro c hc
    exact ne_newline_of_mem_renderTokens h.tokens hc
  cases l with
  | function name f =>
    rcases List.mem_cons.1 hline with rfl | hline
    · cases hc
    · rw [List.mem_singleton.1 hline] at hc
      exact htokens c hc
  | instruction i =>
    rw [List.mem_singleton.1 hline] at hc
    rcases List.mem_cons.1 hc with rfl | hc
    · decide
    · rcases List.mem_cons.1 hc with rfl | hc
      · decide
      · exact htokens c hc
  | entry | «variable» | external | finish =>
    rw [List.mem_singleton.1 hline] at hc
    exact htokens c hc

end Line

/-- The text of lines splits into the lines of each. -/
theorem splitLines_join {ls : List Line} (h : ∀ l ∈ ls, l.Writable) :
    splitLines (String.join (ls.map Line.toText)) = ls.flatMap Line.textLines := by
  have htext : (String.join (ls.map Line.toText)).toList =
      (ls.flatMap Line.textLines).flatMap fun line => line ++ ['\n'] := by
    rw [String.toList_join, List.flatMap_map, List.flatMap_assoc]
    simp only [Line.toList_toText]
  rw [splitLines, htext]
  apply linesFrom_flatMap
  intro line hline c hc
  obtain ⟨l, hl, hline⟩ := List.mem_flatMap.1 hline
  exact Line.ne_newline_of_mem_textLines (h l hl) hline hc

/-! ## Reading written lines -/

/-- Whether the lines of a global are read where they are written, and as this global: they give an
external function only one name. -/
structure Global.Writable (name : String) (g : Global) : Prop where
  /-- The lines are read where they are written. -/
  lines : ∀ l ∈ g.lines name, l.Writable
  /-- An external function has the name under which it is declared. -/
  external : ∀ ef, g = .function (.external ef) → ef.name = name

namespace Draft

variable {d : Draft}

/-- An empty line says nothing. -/
theorem addText_nil (d : Draft) (n : Nat) : d.addText n [] = .ok d := rfl

/-- A line of tokens adds what it says. -/
theorem addText_of_tokenize {l : Line} (h : l.Writable) (n : Nat) {line : List Char}
    (hline : tokenize line = .ok l.tokens) : d.addText n line = d.add n l.reread := by
  rw [addText, hline]
  show (Line.read l.tokens >>= _) = _
  rw [Line.read_tokens h.unambiguous]
  rfl

/-- A line of text that is read adds to the draft. -/
theorem addLines_cons {d' : Draft} {n : Nat} {line : List Char} (h : d.addText n line = .ok d')
    (rest : List (List Char)) : d.addLines n (line :: rest) = d'.addLines (n + 1) rest := by
  rw [addLines, h]

/-- The text of a line adds what the line says; only a blank line before a function counts as
well. -/
theorem addLines_textLines {l : Line} (h : l.Writable) (n : Nat) :
    ∃ m, ∀ d', d.add m l.reread = .ok d' →
      ∀ rest, d.addLines n (l.textLines ++ rest) = d'.addLines (m + 1) rest := by
  have hread := tokenize_renderTokens h.tokens
  cases l with
  | function name f =>
    -- The blank line in front is counted, too.
    refine ⟨n + 1, fun d' hadd rest => ?_⟩
    rw [Line.textLines, List.cons_append, List.singleton_append, addLines_cons (addText_nil d n),
      addLines_cons ((addText_of_tokenize h _ hread).trans hadd)]
  | instruction i =>
    refine ⟨n, fun d' hadd rest => ?_⟩
    have hread := tokenize_indented h.tokens
    rw [Line.textLines, List.singleton_append,
      addLines_cons ((addText_of_tokenize h _ hread).trans hadd)]
  | entry | «variable» | external | finish =>
    exact ⟨n, fun d' hadd rest => addLines_cons ((addText_of_tokenize h _ hread).trans hadd) rest⟩

/-- Instructions are added to the code of the open function. -/
theorem addLines_code (globals : Array (String × Global)) (entry : String)
    {code : List Instruction} (h : ∀ i ∈ code, (Line.instruction i).Writable) (o : OpenFunction)
    (n : Nat) :
    ∃ m, ∀ rest, (⟨globals, entry, some o⟩ : Draft).addLines n
        ((code.map Line.instruction).flatMap Line.textLines ++ rest) =
      (⟨globals, entry, some { o with
        function.code := o.function.code ++ (code.map Instruction.quieted).toArray }⟩ :
          Draft).addLines m rest := by
  induction code generalizing o n with
  | nil =>
    refine ⟨n, fun rest => ?_⟩
    simp
  | cons i code ih =>
    obtain ⟨m, hm⟩ := addLines_textLines (d := ⟨globals, entry, some o⟩)
      (h i (List.mem_cons_self ..)) n
    obtain ⟨k, hk⟩ := ih (fun i' hi' => h i' (List.mem_cons_of_mem _ hi'))
      { o with function.code := o.function.code.push i.quieted } (m + 1)
    refine ⟨k, fun rest => ?_⟩
    rw [List.map_cons, List.flatMap_cons, List.append_assoc, hm _ rfl, hk]
    simp

/-- The lines of a global add the global. -/
theorem addLines_global (globals : Array (String × Global)) (entry : String) {name : String}
    {g : Global} (h : g.Writable name) (n : Nat) :
    ∃ m, ∀ rest, (⟨globals, entry, none⟩ : Draft).addLines n
        ((g.lines name).flatMap Line.textLines ++ rest) =
      (⟨globals.push (name, g.quieted), entry, none⟩ : Draft).addLines m rest := by
  cases g with
  | «variable» init =>
    obtain ⟨m, hm⟩ := addLines_textLines (d := ⟨globals, entry, none⟩)
      (h.lines (.variable name init) (by simp [Global.lines])) n
    refine ⟨m + 1, fun rest => ?_⟩
    rw [Global.lines, List.flatMap_singleton, hm _ rfl]
    rfl
  | function d =>
    cases d with
    | external ef =>
      obtain ⟨m, hm⟩ := addLines_textLines (d := ⟨globals, entry, none⟩)
        (h.lines (.external name ef.signature) (by simp [Global.lines])) n
      refine ⟨m + 1, fun rest => ?_⟩
      have hname := h.external ef rfl
      rw [Global.lines, List.flatMap_singleton, hm _ rfl, ← hname]
      rfl
    | internal f =>
      -- The head opens the function, instructions fill it, and the last line closes it.
      have hcode : ∀ i ∈ f.code.toList, (Line.instruction i).Writable := by
        intro i hi
        exact h.lines _ (by simp [Global.lines, Array.mem_toList_iff.1 hi])
      obtain ⟨m, hm⟩ := addLines_textLines (d := ⟨globals, entry, none⟩)
        (h.lines (.function name f) (by simp [Global.lines])) n
      obtain ⟨k, hk⟩ := addLines_code globals entry hcode ⟨name, m, { f with code := #[] }⟩ (m + 1)
      obtain ⟨j, hj⟩ := addLines_textLines (d := ⟨globals, entry, some ⟨name, m, { f with
        code := #[] ++ (f.code.toList.map Instruction.quieted).toArray }⟩⟩)
        (h.lines .finish (by simp [Global.lines])) k
      have hquieted : #[] ++ (f.code.toList.map Instruction.quieted).toArray =
          f.quieted.code := by
        rw [Function.quieted, Array.empty_append, ← Array.toList_map, Array.toArray_toList]
      refine ⟨j + 1, fun rest => ?_⟩
      rw [Global.lines, List.flatMap_append, List.flatMap_cons, List.append_assoc,
        List.append_assoc, hm _ rfl, hk, List.flatMap_singleton, hj _ rfl, hquieted]
      rfl

/-- The lines of globals add the globals. -/
theorem addLines_globals (globals : Array (String × Global)) (entry : String)
    {gs : List (String × Global)} (h : ∀ g ∈ gs, g.2.Writable g.1) (n : Nat) :
    (⟨globals, entry, none⟩ : Draft).addLines n
        ((gs.flatMap fun g => g.2.lines g.1).flatMap Line.textLines) =
      .ok ⟨globals ++ (gs.map fun g => (g.1, g.2.quieted)).toArray, entry, none⟩ := by
  induction gs generalizing globals n with
  | nil =>
    rw [List.map_nil, Array.append_empty]
    rfl
  | cons g gs ih =>
    -- Only the line numbers depend on what has been read before.
    obtain ⟨m, hm⟩ := addLines_global globals entry (h g (List.mem_cons_self ..)) n
    have hgs := ih (globals.push (g.1, g.2.quieted))
      (fun g' hg' => h g' (List.mem_cons_of_mem _ hg')) m
    rw [List.flatMap_cons, List.flatMap_append, hm, hgs]
    simp

end Draft

/-- Whether the lines of a program are read where they are written, and as this program. -/
structure Program.Writable (p : Program) : Prop where
  /-- The name of the entry point is. -/
  entry : (Line.entry p.entry).Writable
  /-- The globals are. -/
  globals : ∀ g ∈ p.globals, g.2.Writable g.1

/-- The lines of a program that is read where it is written are. -/
theorem Program.Writable.lines {p : Program} (h : p.Writable) : ∀ l ∈ p.lines, l.Writable := by
  intro l hl
  rcases List.mem_cons.1 hl with rfl | hl
  · exact h.entry
  · obtain ⟨g, hg, hl⟩ := List.mem_flatMap.1 hl
    exact (h.globals g hg).lines l hl

/-- The canonical text of a program is read as this program. -/
theorem Program.ofText_toText {p : Program} (h : p.Writable) :
    Program.ofText p.toText = .ok p.quieted := by
  obtain ⟨m, hm⟩ := Draft.addLines_textLines (d := .empty) h.entry 1
  have hglobals := Draft.addLines_globals #[] p.entry h.globals (m + 1)
  rw [ofText, toText, splitLines_join h.lines, lines, List.flatMap_cons, hm _ rfl, hglobals,
    Array.empty_append]
  rfl

/-! ## Programs that were read -/

/-- Whether what has been read of a program is read where it is written. -/
structure Draft.Writable (d : Draft) : Prop where
  /-- The name of the entry point is. -/
  entry : (Line.entry d.entry).Writable
  /-- The complete globals are. -/
  globals : ∀ g ∈ d.globals, g.2.Writable g.1
  /-- The open function is, with the code that it has. -/
  opened : ∀ o, d.open? = some o → (Global.function (.internal o.function)).Writable o.name

namespace Draft.Writable

variable {d d' : Draft} {n : Nat}

/-- Where nothing has been read, the entry point is called `main`. -/
theorem empty : Draft.empty.Writable where
  entry := by
    refine ⟨trivial, .keyword (by simp [keywords]) (.cons ?_ allWritable_nil)⟩
    decide +kernel
  globals g hg := absurd hg (Array.not_mem_empty g)
  opened o ho := by cases ho

/-- A global that is added is the last one. -/
theorem forall_push {globals : Array (String × Global)} {name : String} {g : Global}
    (h : ∀ g ∈ globals, g.2.Writable g.1) (hg : g.Writable name) :
    ∀ g' ∈ globals.push (name, g), g'.2.Writable g'.1 := by
  intro g' hg'
  rcases Array.mem_push.1 hg' with hg' | rfl
  · exact h g' hg'
  · exact hg

/-- The name `end` of the last line of a function is fixed. -/
theorem finish : Line.finish.Writable :=
  ⟨trivial, .keyword (by simp [keywords]) allWritable_nil⟩

/-- A line that is read where it is written adds what is. -/
theorem add (h : d.Writable) {l : Line} (hl : l.Writable) (hcode : l.Codeless)
    (hadd : d.add n l = .ok d') : d'.Writable := by
  obtain ⟨globals, entry, open?⟩ := d
  -- An open function takes instructions and its end, everything else stands outside of functions.
  cases open? with
  | some o =>
    have hopen := h.opened o rfl
    cases l with
    | instruction i =>
      cases hadd
      refine ⟨h.entry, h.globals, ?_⟩
      rintro o' ⟨⟩
      refine ⟨fun l' hl' => ?_, by rintro ef ⟨⟩⟩
      -- The only new line is that of the instruction.
      simp only [Global.lines, Array.toList_push, List.map_append, List.map_singleton,
        List.cons_append, List.append_assoc, List.mem_cons, List.mem_append, List.not_mem_nil,
        or_false, false_or] at hl'
      rcases hl' with rfl | hl' | rfl | rfl
      · have hhead := hopen.lines (.function o.name o.function) (by simp [Global.lines])
        exact ⟨trivial, hhead.tokens⟩
      · exact hopen.lines l' (List.mem_append_left _ (List.mem_cons_of_mem _ hl'))
      · exact hl
      · exact finish
    | finish =>
      cases hadd
      exact ⟨h.entry, forall_push h.globals hopen, by rintro o ⟨⟩⟩
    | entry | «variable» | external | function => cases hadd
  | none =>
    cases l with
    | entry name =>
      cases hadd
      exact ⟨hl, h.globals, by rintro o ⟨⟩⟩
    | «variable» name init =>
      cases hadd
      refine ⟨h.entry, forall_push h.globals ⟨fun l' hl' => ?_, by rintro ef ⟨⟩⟩, by rintro o ⟨⟩⟩
      rw [List.mem_singleton.1 hl']
      exact hl
    | external name sig =>
      cases hadd
      refine ⟨h.entry, forall_push h.globals ⟨fun l' hl' => ?_, ?_⟩, by rintro o ⟨⟩⟩
      · rw [List.mem_singleton.1 hl']
        exact hl
      · rintro ef ⟨⟩
        rfl
    | function name f =>
      cases hadd
      refine ⟨h.entry, h.globals, ?_⟩
      rintro o ⟨⟩
      refine ⟨fun l' hl' => ?_, by rintro ef ⟨⟩⟩
      have hempty : f.code = #[] := hcode
      simp only [Global.lines, hempty, List.map_nil, List.cons_append, List.nil_append,
        List.mem_cons, List.not_mem_nil, or_false] at hl'
      rcases hl' with rfl | rfl
      · exact hl
      · exact finish
    | finish | instruction => cases hadd

/-- A line of text that is read adds what is read where it is written. -/
theorem addText (h : d.Writable) {line : List Char} (hadd : d.addText n line = .ok d') :
    d'.Writable := by
  obtain ⟨ts, hts, hadd⟩ := bind_eq_ok_iff.1 hadd
  obtain ⟨l?, hl?, hadd⟩ := bind_eq_ok_iff.1 hadd
  cases l? with
  | none =>
    cases hadd
    exact h
  | some l =>
    obtain ⟨hl, hcode⟩ := Line.writable_of_read (fun w hw => Token.writable_of_tokenize hts hw) hl?
    exact h.add hl hcode hadd

/-- Lines of text that are read add what is read where it is written. -/
theorem addLines (h : d.Writable) {lines : List (List Char)} (hadd : d.addLines n lines = .ok d') :
    d'.Writable := by
  induction lines generalizing d n with
  | nil =>
    cases hadd
    exact h
  | cons line lines ih =>
    rw [Draft.addLines] at hadd
    split at hadd
    · rename_i hline
      exact ih (h.addText hline) hadd
    · cases hadd

end Draft.Writable

/-- A program that was read is read where it is written. -/
theorem Program.writable_of_ofText {text : String} {p : Program}
    (h : Program.ofText text = .ok p) : p.Writable := by
  obtain ⟨d, hd, hfinish⟩ := bind_eq_ok_iff.1 h
  have hwritable := Draft.Writable.empty.addLines hd
  rw [Draft.finish] at hfinish
  split at hfinish
  · -- A text that ends within a function is refused.
    cases hfinish
  · cases hfinish
    exact ⟨hwritable.entry, fun g hg => hwritable.globals g (Array.mem_toList_iff.1 hg)⟩

/-! ## The round trip -/

/-- The canonical text of a program that was read is read as the same program, with one not-a-number
for all of them, and that program has the same text. -/
theorem Program.ofText_toText_of_ofText {text : String} {p : Program}
    (h : Program.ofText text = .ok p) :
    Program.ofText p.toText = .ok p.quieted ∧ p.quieted.toText = p.toText :=
  ⟨ofText_toText (writable_of_ofText h), p.toText_quieted⟩

/-- A text with capital letters, a comment, a hexadecimal number and a not-a-number with a sign. -/
def Program.looseText : String :=
  "VAR x Float64 -nan addr x 4 ; data\nentry f\n" ++
    "func f () -> int frame 8 stack 0 link 0 retaddr 1\nop R0 intconst 0x2A\nRETURN\nend"

/-- The program of this text. -/
def Program.loose : Program :=
  ⟨[("x", .variable [.float64 (.ofCode true BinaryFormat.binary64.quietNaN), .address "x" 4#32]),
    ("f", .function (.internal ⟨.main,
      #[.op (.intConst 42#32) [] Convention.standard.intResult, .ret],
      8#32, 0#32, 0#32, 1#32⟩))], "f"⟩

/-- The canonical text of this program is read as the program with the other not-a-number. -/
theorem Program.ofText_toText_loose :
    Program.ofText looseText = .ok loose ∧
      Program.ofText loose.toText = .ok loose.quieted ∧ loose.quieted.toText = loose.toText := by
  have hread : (Program.ofText looseText).toOption = some loose := by decide +kernel
  have hloose : Program.ofText looseText = .ok loose := toOption_eq_some_iff.1 hread
  exact ⟨hloose, ofText_toText_of_ofText hloose⟩

end RegisterMachine
