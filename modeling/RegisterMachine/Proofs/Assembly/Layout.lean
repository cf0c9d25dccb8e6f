import RegisterMachine.Proofs.Assembly.Tokens
import Mathlib.Data.List.Infix

/-! # Layouts of lines

The layout of a line does not matter to its tokens. Lexemes may be written out with any blanks
before, between and behind them, as long as there is one between two words, and a comment may come
last. Such a line is cut into the same lexemes again. The other way round, every line is a layout of
the lexemes that it is cut into, so that these are the only ones that it lays out.

* `Lexeme.Layout` — the lines in which lexemes are written out.
* `Lexeme.scan_of_layout`, `Lexeme.layout_scan` — a line is cut into the lexemes that it lays out.
* `Lexeme.scan_nil_eq_iff` — both directions together.
* `Token.LaidOut` — the lines in which tokens are written out.
* `layout_immaterial` — tokens are read from every line that lays them out.
-/

namespace RegisterMachine

variable {c : Char} {cs rest line word : List Char} {l : Lexeme} {ls : List Lexeme} {t : Token}
  {ts : List Token}

/-- A word in terms of what it does not contain. -/
theorem isWord_iff :
    IsWord cs ↔ cs ≠ [] ∧
      (∀ c ∈ cs, isBlank c = false ∧ c ≠ '(' ∧ c ≠ ')' ∧ c ≠ ';') ∧ ¬ ['-', '>'] <:+: cs := by
  have harrow : (cs.IsChain fun a b => ¬ (a = '-' ∧ b = '>')) ↔ ¬ ['-', '>'] <:+: cs := by
    rw [List.isChain_iff_forall_rel_of_append_cons_cons]
    constructor
    · rintro hchain ⟨before, behind, rfl⟩
      have hsplit : before ++ ['-', '>'] ++ behind = before ++ '-' :: '>' :: behind := by simp
      exact hchain hsplit ⟨rfl, rfl⟩
    · rintro hinfix a b before behind rfl ⟨rfl, rfl⟩
      exact hinfix ⟨before, behind, by simp⟩
  rw [← harrow]
  constructor
  · intro h
    exact ⟨h.ne_nil, fun c hc => isWordChar_iff.1 (h.chars c hc), h.noArrow⟩
  · rintro ⟨hne, hchars, hchain⟩
    exact ⟨hne, fun c hc => isWordChar_iff.2 (hchars c hc), hchain⟩

namespace Lexeme

/-! ## Lexemes written out -/

/-- The text of a lexeme. -/
def text : Lexeme → List Char
  | .word cs => cs
  | .lparen => ['(']
  | .rparen => [')']
  | .arrow => ['-', '>']

/-- Whether a lexeme is punctuation, which needs no blanks around it. -/
def isPunctuation : Lexeme → Bool
  | .word _ => false
  | .lparen | .rparen | .arrow => true

/-- A lexeme is kept apart from the lexemes behind it, which are written out in a text: either it or
the next one is punctuation, or the text begins with a blank. -/
def Apart (l : Lexeme) (ls : List Lexeme) (cs : List Char) : Prop :=
  l.isPunctuation = true ∨ (∀ l' ∈ ls.head?, l'.isPunctuation = true) ∨
    ∃ c ∈ cs.head?, isBlank c = true

/-- A lexeme is kept apart from nothing. -/
theorem apart_nil : Apart l [] cs := .inr (.inl (by simp))

/-- A lexeme is kept apart from punctuation behind it. -/
theorem apart_cons {l' : Lexeme} (h : l'.isPunctuation = true) : Apart l (l' :: ls) cs :=
  .inr (.inl (by simpa using h))

/-- A lexeme is kept apart from others by a blank. -/
theorem apart_blank (hc : isBlank c = true) : Apart l ls (c :: cs) := .inr (.inr ⟨c, rfl, hc⟩)

/-- A line lays lexemes out: it consists of their texts in this order, kept apart from each other,
with any further blanks around them, and perhaps of a comment at its end. -/
inductive Layout : List Lexeme → List Char → Prop where
  /-- An empty line lays nothing out. -/
  | nil : Layout [] []
  /-- Nor does a comment. -/
  | comment (cs : List Char) : Layout [] (';' :: cs)
  /-- A blank before the first lexeme, or before the end. -/
  | blank {c : Char} {ls : List Lexeme} {cs : List Char} (hc : isBlank c = true)
    (h : Layout ls cs) : Layout ls (c :: cs)
  /-- The text of a lexeme before others. -/
  | cons {l : Lexeme} {ls : List Lexeme} {cs : List Char} (hapart : Apart l ls cs)
    (h : Layout ls cs) : Layout (l :: ls) (l.text ++ cs)

/-! ## Scanning a layout -/

/-- A text is at its end, or it begins with what ends a word. -/
inductive Breaks : List Char → Prop where
  /-- The end of the line. -/
  | nil : Breaks []
  /-- A comment. -/
  | comment (cs : List Char) : Breaks (';' :: cs)
  /-- A blank. -/
  | blank {c : Char} (hc : isBlank c = true) (cs : List Char) : Breaks (c :: cs)
  /-- Punctuation. -/
  | punctuation {l : Lexeme} (hl : l.isPunctuation = true) (cs : List Char) : Breaks (l.text ++ cs)

/-- A blank is scanned as the end of the open word. -/
theorem scan_of_isBlank (hc : isBlank c = true) : scan word (c :: cs) = close word (scan [] cs) := by
  have hne : ∀ d : Char, isBlank d = false → c ≠ d := by
    rintro d hd rfl
    rw [hc] at hd
    cases hd
  rw [scan_other (hne _ (by decide)) (hne _ (by decide)) (hne _ (by decide)), if_pos hc]
  rintro ⟨heq, -⟩
  exact hne '-' (by decide) heq

/-- What ends a word closes it, and is scanned as if there had been none. -/
theorem Breaks.scan_eq (h : Breaks rest) : scan word rest = close word (scan [] rest) := by
  cases h with
  | nil => rfl
  | comment cs => rfl
  | blank hc cs =>
    rw [scan_of_isBlank hc, scan_of_isBlank hc]
    rfl
  | @punctuation l hl cs =>
    cases l with
    | word w => cases hl
    | lparen | rparen | arrow => rfl

/-- No arrow is completed by what ends a word. -/
theorem Breaks.head?_ne (h : Breaks rest) : rest.head? ≠ some '>' := by
  cases h with
  | nil | comment cs => simp
  | blank hc cs =>
    rintro ⟨⟩
    cases hc
  | @punctuation l hl cs =>
    cases l with
    | word w => cases hl
    | lparen | rparen | arrow => simp [text]

/-- A word that is kept apart from the lexemes behind it is ended by their layout. -/
theorem Layout.breaks (h : Layout ls cs) {w : List Char} (hapart : Apart (.word w) ls cs) :
    Breaks cs := by
  rcases hapart with hw | hnext | ⟨c, hc, hblank⟩
  · cases hw
  · cases h with
    | nil => exact .nil
    | comment cs => exact .comment cs
    | blank hc h => exact .blank hc _
    | cons _ h => exact .punctuation (hnext _ rfl) _
  · obtain ⟨rest, rfl⟩ := List.head?_eq_some_iff.1 hc
    exact .blank hblank rest

/-- A line is cut into the lexemes that it lays out. -/
theorem scan_of_layout (h : Layout ls line) (hwords : ∀ w, .word w ∈ ls → IsWord w) :
    scan [] line = ls := by
  induction h with
  | nil => rfl
  | comment cs => rfl
  | blank hc _ ih =>
    rw [scan_of_isBlank hc, ih hwords]
    rfl
  | @cons l ls cs hapart h ih =>
    have hrest := ih fun w hw => hwords w (List.mem_cons_of_mem _ hw)
    cases l with
    | word w =>
      have hbreaks := h.breaks hapart
      rw [text, scan_closed_word (hwords w (List.mem_cons_self ..)) hbreaks.head?_ne hbreaks.scan_eq,
        hrest]
    | lparen | rparen | arrow =>
      rw [← hrest]
      rfl

/-! ## The layout of a line -/

/-- A word before the lexemes of a text is laid out before that text. -/
theorem Layout.close (h : Layout ls cs) (hapart : Apart (.word word.reverse) ls cs) :
    Layout (close word ls) (word.reverse ++ cs) := by
  rw [Lexeme.close]
  split
  · rename_i hempty
    rw [List.isEmpty_iff] at hempty
    subst hempty
    exact h
  · exact .cons hapart h

/-- A line lays out the lexemes that it is cut into, behind the open word. -/
theorem layout_scan_append (word cs : List Char) : Layout (scan word cs) (word.reverse ++ cs) := by
  fun_induction scan word cs with
  | case1 word => exact Layout.nil.close apart_nil
  | case2 word cs => exact (Layout.comment cs).close apart_nil
  | case3 word cs ih =>
    have hlayout : Layout (.lparen :: scan [] cs) ('(' :: cs) := .cons (.inl rfl) ih
    exact hlayout.close (apart_cons rfl)
  | case4 word cs ih =>
    have hlayout : Layout (.rparen :: scan [] cs) (')' :: cs) := .cons (.inl rfl) ih
    exact hlayout.close (apart_cons rfl)
  | case5 word cs ih =>
    have hlayout : Layout (.arrow :: scan [] cs) ('-' :: '>' :: cs) := .cons (.inl rfl) ih
    exact hlayout.close (apart_cons rfl)
  | case6 word c cs hcomment hleft hright harrow hblank ih =>
    exact (Layout.blank hblank ih).close (apart_blank hblank)
  | case7 word c cs hcomment hleft hright harrow hblank ih =>
    -- The character is the last one of the open word.
    rwa [List.reverse_cons, List.append_assoc] at ih

/-- A line lays out the lexemes that it is cut into. -/
theorem layout_scan (line : List Char) : Layout (scan [] line) line := layout_scan_append [] line

/-- A line is cut into those lexemes that it lays out and whose words are words. -/
theorem scan_nil_eq_iff :
    scan [] line = ls ↔ (∀ w, .word w ∈ ls → IsWord w) ∧ Layout ls line := by
  constructor
  · rintro rfl
    exact ⟨fun w hw => isWord_of_mem_scan (isOpenWord_nil line) hw, layout_scan line⟩
  · rintro ⟨hwords, hlayout⟩
    exact scan_of_layout hlayout hwords

end Lexeme

/-! ## Tokens written out -/

namespace Token

/-- A line in which tokens are written out one after the other, in any layout. -/
def LaidOut (ts : List Token) (line : List Char) : Prop := Lexeme.Layout (ts.map lexeme) line

/-- The text of a token is that of its lexeme. -/
@[simp] theorem text_lexeme (t : Token) : t.lexeme.text = t.toText.toList := by
  cases t <;> rfl

/-- A token is laid out before others by its spelling. -/
theorem LaidOut.cons (h : LaidOut ts cs) (hapart : t.lexeme.Apart (ts.map lexeme) cs) :
    LaidOut (t :: ts) (t.toText.toList ++ cs) := by
  rw [← text_lexeme]
  exact Lexeme.Layout.cons hapart h

/-- Tokens that can be written are words or punctuation. -/
theorem isWord_of_mem_lexemes (h : ∀ t ∈ ts, t.Writable) {w : List Char}
    (hw : .word w ∈ ts.map lexeme) : IsWord w := by
  obtain ⟨t, ht, hlexeme⟩ := List.mem_map.1 hw
  have hwritable := h t ht
  cases t with
  | word w' =>
    cases hlexeme
    exact hwritable.1
  | int n =>
    cases hlexeme
    exact isWord_toString n
  | float x =>
    cases hlexeme
    exact Double.isWord_toText hwritable
  | lparen | rparen | arrow => cases hlexeme

/-- Which words can be written. -/
theorem writable_word_iff {w : String} :
    (Token.word w).Writable ↔ w.toList ≠ [] ∧
      (∀ c ∈ w.toList, isBlank c = false ∧ c ≠ '(' ∧ c ≠ ')' ∧ c ≠ ';') ∧
      ¬ ['-', '>'] <:+: w.toList ∧ looksNumeric w.toList = false := by
  rw [Writable, isWord_iff, and_assoc, and_assoc]

end Token

/-- Tokens that can be written are read from every line that lays them out. -/
theorem tokenize_of_laidOut (h : ∀ t ∈ ts, t.Writable) (hline : Token.LaidOut ts line) :
    tokenize line = .ok ts := by
  have hscan : Lexeme.scan [] line = ts.map Token.lexeme :=
    Lexeme.scan_of_layout hline fun w => Token.isWord_of_mem_lexemes h
  rw [tokenize, hscan, mapM_token_lexeme h]

/-- The canonical text of tokens lays them out. -/
theorem laidOut_renderTokens (ts : List Token) : Token.LaidOut ts (renderTokens ts).toList := by
  -- The cases are the ways in which tokens are joined.
  fun_induction renderTokens ts with
  | case1 => exact .nil
  | case2 t =>
    have hlast : Token.LaidOut [t] (t.toText.toList ++ []) := .cons .nil Lexeme.apart_nil
    rwa [List.append_nil] at hlast
  | case3 ts hts ih =>
    rw [String.toList_append]
    exact ih.cons (.inl rfl)
  | case4 t ts hts ih =>
    rw [String.toList_append]
    exact ih.cons (Lexeme.apart_cons rfl)
  | case5 t ts hts hopen hclose ih =>
    rw [String.toList_append, String.toList_append, List.append_assoc]
    have hblank : isBlank ' ' = true := by decide
    exact Token.LaidOut.cons (.blank hblank ih) (Lexeme.apart_blank hblank)

/-- The layout of a line is immaterial.

* Tokens whose words are words, and whose numbers can be written, are read from every line in which
  they are written out; the canonical text is one of these lines.
* Every word that is read has no blanks, comments, parentheses and arrows in it, is not empty and
  does not look like a number.
* Tokens are read from a line if it is a layout of lexemes that are these tokens, and two lines that
  lay out the same lexemes have the same tokens, or the same fault. -/
theorem layout_immaterial (line : List Char) :
    (∀ ts : List Token, (∀ t ∈ ts, t.Writable) →
      Token.LaidOut ts (renderTokens ts).toList ∧
      (Token.LaidOut ts line → tokenize line = .ok ts)) ∧
    (∀ (ts : List Token) (w : String), tokenize line = .ok ts → .word w ∈ ts →
      w.toList ≠ [] ∧ (∀ c ∈ w.toList, isBlank c = false ∧ c ≠ '(' ∧ c ≠ ')' ∧ c ≠ ';') ∧
      ¬ ['-', '>'] <:+: w.toList ∧ looksNumeric w.toList = false) ∧
    (∀ ts : List Token, tokenize line = .ok ts ↔
      ∃ ls : List Lexeme, (∀ w, .word w ∈ ls → IsWord w) ∧ Lexeme.Layout ls line ∧
        ls.mapM Lexeme.token = .ok ts) ∧
    (∀ (ls : List Lexeme) (line' : List Char), (∀ w, .word w ∈ ls → IsWord w) →
      Lexeme.Layout ls line → Lexeme.Layout ls line' → tokenize line = tokenize line') := by
  refine ⟨fun ts h => ⟨laidOut_renderTokens ts, tokenize_of_laidOut h⟩,
    fun ts w h hw => Token.writable_word_iff.1 (Token.writable_of_tokenize h hw), fun ts => ?_,
    fun ls line' hwords h h' => ?_⟩
  · constructor
    · intro h
      obtain ⟨hwords, hlayout⟩ := Lexeme.scan_nil_eq_iff.1 (rfl : Lexeme.scan [] line = _)
      exact ⟨_, hwords, hlayout, h⟩
    · rintro ⟨ls, hwords, hlayout, h⟩
      rw [tokenize, Lexeme.scan_of_layout hlayout hwords, h]
  · rw [tokenize, tokenize, Lexeme.scan_of_layout h hwords, Lexeme.scan_of_layout h' hwords]

/-- Words with a minus sign at the end and an angle bracket at the front are kept apart by an arrow
without any blanks, and a number and a word by a blank that is not ASCII. -/
theorem layout_immaterial_adjacent :
    let ts : List Token :=
      [.word "a-", .arrow, .word ">b", .lparen, .int (-31), .word "-inf", .rparen]
    let line : List Char := "\ta-->>b(-31\u3000-inf);c(".toList
    (∀ t ∈ ts, t.Writable) ∧ Token.LaidOut ts line ∧ tokenize line = .ok ts := by
  intro ts line
  have hwritable : ∀ t ∈ ts, t.Writable := by decide +kernel
  have hline : line = '\t' :: ((Token.word "a-").toText.toList ++ (Token.arrow.toText.toList ++
      ((Token.word ">b").toText.toList ++ (Token.lparen.toText.toList ++
      ((Token.int (-31)).toText.toList ++ '\u3000' :: ((Token.word "-inf").toText.toList ++
      (Token.rparen.toText.toList ++ [';', 'c', '(']))))))) := by decide +kernel
  have hparen : Token.LaidOut [.rparen] (Token.rparen.toText.toList ++ [';', 'c', '(']) :=
    Token.LaidOut.cons (.comment _) (.inl rfl)
  have hword : Token.LaidOut [.word "-inf", .rparen] _ := hparen.cons (Lexeme.apart_cons rfl)
  have hgap : Token.LaidOut [.word "-inf", .rparen] ('\u3000' :: _) := .blank (by decide) hword
  have hint : Token.LaidOut [.int (-31), .word "-inf", .rparen] _ :=
    hgap.cons (Lexeme.apart_blank (by decide))
  have hopen : Token.LaidOut [.lparen, .int (-31), .word "-inf", .rparen] _ :=
    hint.cons (.inl rfl)
  have hangle : Token.LaidOut [.word ">b", .lparen, .int (-31), .word "-inf", .rparen] _ :=
    hopen.cons (Lexeme.apart_cons rfl)
  have harrow : Token.LaidOut [.arrow, .word ">b", .lparen, .int (-31), .word "-inf", .rparen] _ :=
    hangle.cons (.inl rfl)
  have hlaid : Token.LaidOut ts line := by
    rw [hline]
    exact .blank (by decide) (harrow.cons (Lexeme.apart_cons rfl))
  exact ⟨hwritable, hlaid, ((layout_immaterial line).1 ts hwritable).2 hlaid⟩

end RegisterMachine
