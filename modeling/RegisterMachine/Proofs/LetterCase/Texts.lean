import RegisterMachine.Proofs.LetterCase.Readers
import Mathlib.Control.Monad.Basic

/-! # Assembly texts in any letter case

The language does not tell capital letters from small ones: a text can be written in any mixture of
ASCII cases, and describes the same program but for the spelling of its symbols. What is wrong with
it is found in the same line and is the same but for the spelling of words.

* `Program.mapSymbols`, `Draft.mapSymbols` — programs with other symbols.
* `Draft.add_mapSymbols` — what a line adds does not depend on the spelling of symbols.
* `splitLines_agree` — the lines of a text.
* `Program.ofText_ignores_case` — texts that differ in letter case only.
-/

namespace RegisterMachine

/-! ## Other symbols -/

section

variable (g : String → String)

/-- The definition of a function with its symbols changed. -/
def FunctionDef.mapSymbols : FunctionDef → FunctionDef
  | .internal f => .internal (f.mapSymbols g)
  | .external ef => .external ⟨g ef.name, ef.signature⟩

/-- A global with its symbols changed. -/
def Global.mapSymbols : Global → Global
  | .function d => .function (d.mapSymbols g)
  | .variable init => .variable (init.map (InitialData.mapSymbols g))

/-- A global and its name with their symbols changed. -/
def Global.mapNamed (entry : String × Global) : String × Global :=
  (g entry.1, entry.2.mapSymbols g)

/-- A program with its symbols changed. -/
def Program.mapSymbols (p : Program) : Program :=
  ⟨p.globals.map (Global.mapNamed g), g p.entry⟩

/-- An open function with its symbols changed. -/
def OpenFunction.mapSymbols (f : OpenFunction) : OpenFunction :=
  ⟨g f.name, f.line, f.function.mapSymbols g⟩

/-- A draft with its symbols changed. -/
def Draft.mapSymbols (d : Draft) : Draft :=
  ⟨d.globals.map (Global.mapNamed g), g d.entry, d.open?.map (OpenFunction.mapSymbols g)⟩

end

/-- An error with all letters small in the words that it takes from the text. -/
def AssemblyError.fold (e : AssemblyError) : AssemblyError := ⟨e.line, e.fault.fold⟩

/-- Results agree if they are the same after a change of their values and errors. -/
theorem ResultsAgree.of_map_eq {ε ε' α α' : Type} {f : ε → ε'} {k : α → α'} {x y : Except ε α}
    (h : (x.map k).mapError f = (y.map k).mapError f) :
    ResultsAgree f (fun a b => k a = k b) x y := by
  cases x with
  | ok a =>
    cases y with
    | ok b => exact .ok (Except.ok.inj h)
    | error e => cases h
  | error e =>
    cases y with
    | ok b => cases h
    | error e' => exact .error (Except.error.inj h)

/-! ## Drafts -/

namespace Draft

variable {d d' : Draft}

/-- What a line adds to a draft does not depend on the spelling of symbols. The word `end` is one
that a fault can show. -/
theorem add_mapSymbols {g : String → String} (hend : g "end" = "end") (d : Draft) (n : Nat)
    (l : Line) :
    (d.mapSymbols g).add n (l.mapSymbols g) =
      ((d.add n l).map (mapSymbols g)).mapError (Fault.mapWords g) := by
  obtain ⟨globals, entry, open?⟩ := d
  cases open? with
  | none =>
    cases l with
    | finish => simp [add, mapSymbols, Line.mapSymbols, Except.map, Fault.mapWords, hend]
    | entry name => rfl
    | «variable» name init => simp [add, mapSymbols, Line.mapSymbols, Except.map, Global.mapNamed,
        Global.mapSymbols]
    | external name sig => simp [add, mapSymbols, Line.mapSymbols, Except.map, Global.mapNamed,
        Global.mapSymbols, FunctionDef.mapSymbols]
    | function name f => rfl
    | instruction i => rfl
  | some f =>
    cases l with
    | finish => simp [add, mapSymbols, Line.mapSymbols, Except.map, Global.mapNamed,
        Global.mapSymbols, FunctionDef.mapSymbols, OpenFunction.mapSymbols]
    | instruction i => simp [add, mapSymbols, Line.mapSymbols, Except.map, OpenFunction.mapSymbols,
        Function.mapSymbols]
    | entry | «variable» | external | function => rfl

/-- Drafts with the same symbols up to letter case stay such drafts when lines are added that say
the same up to letter case. -/
theorem add_agrees {n : Nat} {l l' : Line} (hd : d.mapSymbols foldCase = d'.mapSymbols foldCase)
    (hl : l.mapSymbols foldCase = l'.mapSymbols foldCase) :
    ResultsAgree Fault.fold (fun d d' => d.mapSymbols foldCase = d'.mapSymbols foldCase)
      (d.add n l) (d'.add n l') := by
  apply ResultsAgree.of_map_eq
  have hend : foldCase "end" = "end" := by decide +kernel
  rw [Fault.fold, ← add_mapSymbols hend, ← add_mapSymbols hend, hd, hl]

/-- Lines of text that differ in letter case only add the same up to letter case. -/
theorem addText_agrees {n : Nat} {line line' : List Char}
    (hd : d.mapSymbols foldCase = d'.mapSymbols foldCase)
    (hline : line.map Char.toLower = line'.map Char.toLower) :
    ResultsAgree Fault.fold (fun d d' => d.mapSymbols foldCase = d'.mapSymbols foldCase)
      (d.addText n line) (d'.addText n line') := by
  refine (tokenize_agrees hline).bind fun ts ts' hts => ?_
  refine (Line.read_agrees hts).bind fun l? l?' hl => ?_
  cases l? with
  | none =>
    cases l?' with
    | none => exact .ok hd
    | some l' => cases hl
  | some l =>
    cases l?' with
    | none => cases hl
    | some l' => exact add_agrees hd (Option.some.inj hl)

/-- So do several lines. A line that is wrong has the same number. -/
theorem addLines_agree {n : Nat} {lines lines' : List (List Char)}
    (hd : d.mapSymbols foldCase = d'.mapSymbols foldCase)
    (hlines : lines.map (List.map Char.toLower) = lines'.map (List.map Char.toLower)) :
    ResultsAgree AssemblyError.fold (fun d d' => d.mapSymbols foldCase = d'.mapSymbols foldCase)
      (d.addLines n lines) (d'.addLines n lines') := by
  induction lines generalizing d d' n lines' with
  | nil =>
    cases lines' with
    | nil => exact .ok hd
    | cons line' lines' => cases hlines
  | cons line lines ih =>
    cases lines' with
    | nil => cases hlines
    | cons line' lines' =>
      rw [List.map_cons, List.map_cons, List.cons.injEq] at hlines
      rw [addLines, addLines]
      rcases (addText_agrees (n := n) hd hlines.1).cases with
        ⟨d₁, d₁', hok, hok', hd₁⟩ | ⟨fault, fault', herror, herror', hfault⟩
      · rw [hok, hok']
        exact ih hd₁ hlines.2
      · rw [herror, herror']
        exact .error (congrArg (AssemblyError.mk n) hfault)

/-- Drafts with the same symbols up to letter case are finished as such programs, or both miss the
end of a function. -/
theorem finish_agrees (hd : d.mapSymbols foldCase = d'.mapSymbols foldCase) :
    ResultsAgree AssemblyError.fold (fun p p' => p.mapSymbols foldCase = p'.mapSymbols foldCase)
      d.finish d'.finish := by
  obtain ⟨globals, entry, open?⟩ := d
  obtain ⟨globals', entry', open?'⟩ := d'
  simp only [mapSymbols, mk.injEq] at hd
  obtain ⟨hglobals, hentry, hopen⟩ := hd
  cases open? with
  | none =>
    cases open?' with
    | none =>
      have hlists := congrArg Array.toList hglobals
      rw [Array.toList_map, Array.toList_map] at hlists
      exact .ok (congrArg₂ Program.mk hlists hentry)
    | some f' => cases hopen
  | some f =>
    cases open?' with
    | none => cases hopen
    | some f' =>
      have hf := Option.some.inj hopen
      simp only [OpenFunction.mapSymbols, OpenFunction.mk.injEq] at hf
      exact .error (congrArg₂ AssemblyError.mk hf.2.1
        (congrArg Fault.unterminatedFunction hf.1))

end Draft

/-! ## Texts -/

/-- A line break is no letter, so a text has the same lines in either case. -/
theorem linesFrom_map_toLower (line text : List Char) :
    linesFrom (line.map Char.toLower) (text.map Char.toLower) =
      (linesFrom line text).map (List.map Char.toLower) := by
  fun_induction linesFrom line text with
  | case1 line h =>
    rw [List.isEmpty_iff] at h
    subst h
    rfl
  | case2 line h => simp [linesFrom, List.isEmpty_map, h]
  | case3 line text ih =>
    rw [List.map_cons (f := List.map Char.toLower), List.map_reverse, ← ih]
    rfl
  | case4 line c text hc ih =>
    have hc' : c.toLower ≠ '\n' := mt (toLower_eq_iff rfl).1 hc
    rw [List.map_cons, linesFrom, ← ih]
    · rfl
    · exact hc'

/-- Texts that differ in letter case only have lines that do. -/
theorem splitLines_agree {text text' : String} (h : foldCase text = foldCase text') :
    (splitLines text).map (List.map Char.toLower) =
      (splitLines text').map (List.map Char.toLower) := by
  rw [← String.toList_inj, toList_foldCase, toList_foldCase] at h
  have hlines := linesFrom_map_toLower [] text.toList
  have hlines' := linesFrom_map_toLower [] text'.toList
  rw [splitLines, splitLines, ← hlines, ← hlines', h]

namespace Program

/-- The language ignores letter case. Two texts that differ in the case of ASCII letters only either
both describe programs, which are the same but for the case of their symbols: the names of globals
and of external functions, the entry point, and the symbols that code and initial contents refer to;
or both are wrong, in the same line and with the same fault but for the case of the words that it
shows. In particular every word of the language is recognised in any case, and a call goes through a
register in both texts or in none. -/
theorem ofText_ignores_case {text text' : String} (h : foldCase text = foldCase text') :
    (∃ p p', ofText text = .ok p ∧ ofText text' = .ok p' ∧
      p.mapSymbols foldCase = p'.mapSymbols foldCase) ∨
    ∃ e e', ofText text = .error e ∧ ofText text' = .error e' ∧ e.line = e'.line ∧
      e.fault.mapWords foldCase = e'.fault.mapWords foldCase := by
  have hagree : ResultsAgree AssemblyError.fold
      (fun p p' => p.mapSymbols foldCase = p'.mapSymbols foldCase) (ofText text) (ofText text') :=
    (Draft.addLines_agree rfl (splitLines_agree h)).bind fun d d' => Draft.finish_agrees
  rcases hagree.cases with hok | ⟨e, e', he, he', hfold⟩
  · exact .inl hok
  · rw [AssemblyError.fold, AssemblyError.fold, AssemblyError.mk.injEq] at hfold
    exact .inr ⟨e, e', he, he', hfold⟩

/-- Calls of a register and of a symbol that looks like one, in two spellings, and a literal that is
no number, in two spellings. -/
theorem ofText_ignores_case_calls :
    foldCase "func F () frame 8 stack 0 link 0 retaddr 1\ncall R1\ncall R16\nend" =
      foldCase "FUNC f () FRAME 8 STACK 0 LINK 0 RETADDR 1\nCALL r1\nCALL r16\nEND" ∧
    (∃ p p', ofText "func F () frame 8 stack 0 link 0 retaddr 1\ncall R1\ncall R16\nend" = .ok p ∧
      ofText "FUNC f () FRAME 8 STACK 0 LINK 0 RETADDR 1\nCALL r1\nCALL r16\nEND" = .ok p' ∧
      p.globals.map (·.1) = ["F"] ∧ p'.globals.map (·.1) = ["f"] ∧
      p.mapSymbols foldCase = p'.mapSymbols foldCase) ∧
    foldCase "entry a\nvar x int8 0xG" = foldCase "ENTRY A\nVAR X INT8 0Xg" ∧
    ∃ e e', ofText "entry a\nvar x int8 0xG" = .error e ∧
      ofText "ENTRY A\nVAR X INT8 0Xg" = .error e' ∧
      e.fault = .invalidNumber "0xG" ∧ e'.fault = .invalidNumber "0Xg" ∧ e.line = e'.line ∧
      e.fault.mapWords foldCase = e'.fault.mapWords foldCase := by
  have hcalls : foldCase "func F () frame 8 stack 0 link 0 retaddr 1\ncall R1\ncall R16\nend" =
      foldCase "FUNC f () FRAME 8 STACK 0 LINK 0 RETADDR 1\nCALL r1\nCALL r16\nEND" := by
    decide +kernel
  have hnumber : foldCase "entry a\nvar x int8 0xG" = foldCase "ENTRY A\nVAR X INT8 0Xg" := by
    decide +kernel
  have hp : (ofText "func F () frame 8 stack 0 link 0 retaddr 1\ncall R1\ncall R16\nend").map
      (fun p => p.globals.map (·.1)) = .ok ["F"] := by
    decide +kernel
  have hp' : (ofText "FUNC f () FRAME 8 STACK 0 LINK 0 RETADDR 1\nCALL r1\nCALL r16\nEND").map
      (fun p => p.globals.map (·.1)) = .ok ["f"] := by
    decide +kernel
  have he : ofText "entry a\nvar x int8 0xG" = .error ⟨2, .invalidNumber "0xG"⟩ := by
    decide +kernel
  have he' : ofText "ENTRY A\nVAR X INT8 0Xg" = .error ⟨2, .invalidNumber "0Xg"⟩ := by
    decide +kernel
  refine ⟨hcalls, ?_, hnumber, ?_⟩
  · rcases ofText_ignores_case hcalls with ⟨p, p', hok, hok', heq⟩ | ⟨e, e', herror, -, -, -⟩
    · rw [hok] at hp
      rw [hok'] at hp'
      exact ⟨p, p', hok, hok', Except.ok.inj hp, Except.ok.inj hp', heq⟩
    · rw [herror] at hp
      cases hp
  · rcases ofText_ignores_case hnumber with
      ⟨p, p', hok, -, -⟩ | ⟨e, e', herror, herror', hline, hfold⟩
    · cases hok.symm.trans he
    · cases herror.symm.trans he
      cases herror'.symm.trans he'
      exact ⟨_, _, he, he', rfl, rfl, hline, hfold⟩

end Program

end RegisterMachine
