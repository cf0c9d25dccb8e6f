import RegisterMachine.Assembly.Token
import RegisterMachine.Proofs.Double.RoundTrip
import RegisterMachine.Proofs.Results
import Mathlib.Data.List.Chain

/-! # Reading tokens that were written

Tokens written out with single blanks are read as the same tokens, provided that each of them is
spelled as what it is: a word must be one word, and no number. The words of a line that was read
are.

* `IsWord` — text that is one word.
* `Token.Writable` — tokens that are spelled as what they are.
* `tokenize_renderTokens` — reading written tokens.
* `Token.writable_of_tokenize` — the words of a line can be written.
-/

namespace RegisterMachine

/-! ## Words -/

/-- Whether a character may stand in a word. -/
def isWordChar (c : Char) : Bool := !isBlank c && c != '(' && c != ')' && c != ';'

/-- Text that is one word: it has no blanks, no parentheses, no comment and no arrow. -/
structure IsWord (cs : List Char) : Prop where
  /-- There is no empty word. -/
  ne_nil : cs ≠ []
  /-- Nothing separates words. -/
  chars : ∀ c ∈ cs, isWordChar c = true
  /-- A minus sign does not stand before a closing angle bracket. -/
  noArrow : cs.IsChain fun a b => ¬ (a = '-' ∧ b = '>')

instance : DecidablePred IsWord := fun cs =>
  decidable_of_iff (cs ≠ [] ∧ cs.all isWordChar = true ∧
      cs.IsChain fun a b => ¬ (a = '-' ∧ b = '>'))
    ⟨fun h => ⟨h.1, List.all_eq_true.1 h.2.1, h.2.2⟩,
      fun h => ⟨h.ne_nil, List.all_eq_true.2 h.chars, h.noArrow⟩⟩

/-- A character of a word is not blank and no punctuation. -/
theorem isWordChar_iff {c : Char} :
    isWordChar c = true ↔ isBlank c = false ∧ c ≠ '(' ∧ c ≠ ')' ∧ c ≠ ';' := by
  simp [isWordChar, and_assoc]

/-- A character of a number may stand in a word. -/
theorem isWordChar_of_numeral {c : Char}
    (h : c.isDigit = true ∨ c = '.' ∨ c = 'e' ∨ c = '-') : isWordChar c = true ∧ c ≠ '>' := by
  rcases h with h | rfl | rfl | rfl
  · have hlo : 48 ≤ c.toNat := by
      simp only [Char.isDigit, Bool.and_eq_true, decide_eq_true_eq] at h
      exact h.1
    have hhi : c.toNat ≤ 57 := by
      simp only [Char.isDigit, Bool.and_eq_true, decide_eq_true_eq] at h
      exact h.2
    have hne : ∀ d : Char, d.toNat < 48 ∨ 57 < d.toNat → c ≠ d := by
      rintro d hd rfl
      omega
    refine ⟨isWordChar_iff.2 ⟨?_, hne _ (by decide), hne _ (by decide), hne _ (by decide)⟩,
      hne _ (by decide)⟩
    simp only [isBlank, Bool.or_eq_false_iff, Bool.and_eq_false_iff, decide_eq_false_iff_not,
      beq_eq_false_iff_ne]
    omega
  all_goals decide

/-- The characters of a number make one word. -/
theorem isWord_of_numeral {cs : List Char} (hne : cs ≠ [])
    (h : ∀ c ∈ cs, c.isDigit = true ∨ c = '.' ∨ c = 'e' ∨ c = '-') : IsWord cs where
  ne_nil := hne
  chars c hc := (isWordChar_of_numeral (h c hc)).1
  noArrow := by
    -- No angle bracket stands anywhere.
    refine List.isChain_iff_forall_rel_of_append_cons_cons.2 ?_
    rintro a b l₁ l₂ rfl ⟨-, rfl⟩
    exact (isWordChar_of_numeral (h '>' (by simp))).2 rfl

namespace Lexeme

variable {word cs rest : List Char} {c : Char}

/-! ## Scanning words -/

/-- A character that begins no comment, no parenthesis and no arrow is blank and ends the open word,
or is added to it. -/
theorem scan_other (hcomment : c ≠ ';') (hopen : c ≠ '(') (hclose : c ≠ ')')
    (harrow : ¬ (c = '-' ∧ cs.head? = some '>')) :
    scan word (c :: cs) = if isBlank c then close word (scan [] cs) else scan (c :: word) cs := by
  rw [scan.eq_def]
  -- Of the forms of a text only the last is left: no end, comment, parenthesis or arrow.
  split
  · contradiction
  · rename_i heq
    cases heq
    contradiction
  · rename_i heq
    cases heq
    contradiction
  · rename_i heq
    cases heq
    contradiction
  · rename_i heq
    cases heq
    exact absurd ⟨rfl, rfl⟩ harrow
  · rename_i heq
    cases heq
    rfl

/-- A character of a word is added to the open word. -/
theorem scan_cons (hc : isWordChar c = true) (harrow : ¬ (c = '-' ∧ cs.head? = some '>')) :
    scan word (c :: cs) = scan (c :: word) cs := by
  obtain ⟨hblank, hopen, hclose, hcomment⟩ := isWordChar_iff.1 hc
  rw [scan_other hcomment hopen hclose harrow, hblank, if_neg (by decide)]

/-- The characters of a word are added to the open word. -/
theorem scan_append (hcs : ∀ c ∈ cs, isWordChar c = true)
    (harrow : cs.IsChain fun a b => ¬ (a = '-' ∧ b = '>')) (hrest : rest.head? ≠ some '>') :
    scan word (cs ++ rest) = scan (cs.reverse ++ word) rest := by
  induction cs generalizing word with
  | nil => rfl
  | cons c cs ih =>
    obtain ⟨hhead, htail⟩ := List.isChain_cons.1 harrow
    -- An arrow could begin within the word or at its end.
    have hnext : ¬ (c = '-' ∧ (cs ++ rest).head? = some '>') := by
      rintro ⟨hc, hnext⟩
      cases cs with
      | nil => exact hrest hnext
      | cons c' cs =>
        cases hnext
        exact hhead '>' rfl ⟨hc, rfl⟩
    rw [List.cons_append, scan_cons (hcs c (List.mem_cons_self ..)) hnext,
      ih (fun c' hc' => hcs c' (List.mem_cons_of_mem _ hc')) htail, List.reverse_cons,
      List.append_assoc, List.singleton_append]

/-- Whether a text begins with what stands behind a word in written tokens. -/
def EndsWord (cs : List Char) : Prop := ∀ c, cs.head? = some c → c = ' ' ∨ c = ')'

/-- What ends a word closes it. -/
theorem scan_of_endsWord (h : EndsWord rest) : scan word rest = close word (scan [] rest) := by
  cases rest with
  | nil => rfl
  | cons c rest =>
    rcases h c rfl with rfl | rfl
    · rfl
    · rfl

/-- A word is scanned as one lexeme before a text that closes it. -/
theorem scan_closed_word (h : IsWord cs) (hhead : rest.head? ≠ some '>')
    (hclose : scan cs.reverse rest = close cs.reverse (scan [] rest)) :
    scan [] (cs ++ rest) = .word cs :: scan [] rest := by
  have hne : cs.reverse.isEmpty = false := by simpa using h.ne_nil
  rw [scan_append h.chars h.noArrow hhead, List.append_nil, hclose, close, hne,
    if_neg (by decide), List.reverse_reverse]

/-- A word is scanned as one lexeme. -/
theorem scan_word (h : IsWord cs) (hrest : EndsWord rest) :
    scan [] (cs ++ rest) = .word cs :: scan [] rest := by
  refine scan_closed_word h ?_ (scan_of_endsWord hrest)
  intro hc
  rcases hrest '>' hc with hc | hc <;> exact absurd hc (by decide)

/-- Blanks are skipped. -/
theorem scan_blank (cs : List Char) : scan [] (' ' :: cs) = scan [] cs := rfl

end Lexeme

/-! ## Tokens that are spelled as what they are -/

namespace Token

/-- Whether a token is read where it is written. -/
def Writable : Token → Prop
  | .word w => IsWord w.toList ∧ looksNumeric w.toList = false
  | .int n => n.natAbs ≤ Integer.maxMagnitude
  | .float x => x.isFinite = true
  | .lparen | .rparen | .arrow => True

instance : DecidablePred Writable
  | .word w => inferInstanceAs (Decidable (IsWord w.toList ∧ looksNumeric w.toList = false))
  | .int n => inferInstanceAs (Decidable (n.natAbs ≤ Integer.maxMagnitude))
  | .float x => inferInstanceAs (Decidable (x.isFinite = true))
  | .lparen | .rparen | .arrow => inferInstanceAs (Decidable True)

/-- The lexeme that the spelling of a token is. -/
def lexeme : Token → Lexeme
  | .word w => .word w.toList
  | .int n => .word (toString n).toList
  | .float x => .word x.toText.toList
  | .lparen => .lparen
  | .rparen => .rparen
  | .arrow => .arrow

end Token

/-! ### Integers -/

/-- The text of an integer looks like a number. -/
theorem looksNumeric_toString (n : Int) : looksNumeric (toString n).toList = true := by
  obtain ⟨c, cs, hcs⟩ := List.exists_cons_of_ne_nil (@Nat.toDigits_ne_nil n.natAbs 10)
  have hc : c.isDigit = true := isDigit_toDigits (n := n.natAbs) (by simp [hcs])
  rw [looksNumeric, splitSign_toString_int, hcs]
  simp [hc]

/-- Text without the mark of a hexadecimal literal is read as decimal digits. -/
theorem Integer.parseUnsigned?_eq {cs : List Char} (h : ∀ c ∈ cs, c ≠ 'x' ∧ c ≠ 'X') :
    parseUnsigned? cs = parseDecimal? cs := by
  unfold parseUnsigned?
  split
  · exact absurd rfl (h 'x' (by simp)).1
  · exact absurd rfl (h 'X' (by simp)).2
  · rfl

/-- The greatest magnitude is the greatest number of 64 bits. -/
theorem Integer.maxMagnitude_eq : maxMagnitude = 9223372036854775807 := rfl

/-- Numbers of 64 bits do not wrap. -/
theorem Integer.bmod_of_range {n : Int} (hlo : -9223372036854775808 ≤ n)
    (hhi : n ≤ 9223372036854775807) : n.bmod 18446744073709551616 = n :=
  Int.bmod_eq_of_le (by omega) (by omega)

/-- The text of an integer is read as that integer. -/
theorem Integer.parse?_toString {n : Int} (h : n.natAbs ≤ maxMagnitude) :
    parse? (toString n).toList = some n := by
  have hdigits : ∀ c ∈ Nat.toDigits 10 n.natAbs, c.isDigit = true := fun c hc => isDigit_toDigits hc
  have hmark : ∀ c ∈ Nat.toDigits 10 n.natAbs, c ≠ 'x' ∧ c ≠ 'X' := by
    intro c hc
    have hc := hdigits c hc
    constructor
    · rintro rfl
      exact absurd hc (by decide)
    · rintro rfl
      exact absurd hc (by decide)
  have hne : (Nat.toDigits 10 n.natAbs).isEmpty = false := by simp
  have hread : parseDecimal? (Nat.toDigits 10 n.natAbs) = some (n.natAbs : Int) := by
    rw [parseDecimal?, hne, List.all_eq_true.2 hdigits, if_neg (by decide)]
    simp only [digitsToNat_toDigits, if_pos h]
  rw [parse?, splitSign_toString_int]
  simp only [parseUnsigned?_eq hmark, hread, Option.map_some]
  by_cases hn : n < 0
  · have habs : -(n.natAbs : Int) = n := by omega
    have hmax := maxMagnitude_eq
    have hwrap : n.bmod 18446744073709551616 = n := bmod_of_range (by omega) (by omega)
    simp only [hn, decide_true, if_true, habs, hwrap]
  · have habs : (n.natAbs : Int) = n := by omega
    simp only [hn, decide_false, Bool.false_eq_true, if_false, habs]

/-- The text of an integer is one word. -/
theorem isWord_toString (n : Int) : IsWord (toString n).toList := by
  refine isWord_of_numeral ?_ ?_
  · intro hnil
    have hnumeric := looksNumeric_toString n
    rw [hnil] at hnumeric
    exact absurd hnumeric (by decide)
  · intro c hc
    rcases Decimal.isDigit_or_of_mem_toString hc with hc | hc
    · exact .inl hc
    · exact .inr (.inr (.inr hc))

/-! ### Doubles -/

namespace Double

variable {x : Double}

/-- The text of a finite double is a numeral behind its sign. -/
theorem toList_toText_of_isFinite (h : x.isFinite = true) :
    ∃ cs, Decimal.IsNumeral cs ∧ x.toText.toList = if x.isNegative then '-' :: cs else cs := by
  refine ⟨x.magnitudeText, isNumeral_magnitudeText (isFinite_iff.1 h), ?_⟩
  rw [toText, isNaN_of_isFinite h, if_neg (by decide), String.toList_ofList]

/-- The text of a finite double is one word. -/
theorem isWord_toText (h : x.isFinite = true) : IsWord x.toText.toList := by
  obtain ⟨cs, hcs, htext⟩ := toList_toText_of_isFinite h
  obtain ⟨c, hc, -⟩ := hcs.mark
  rw [htext]
  cases x.isNegative with
  | true =>
    apply isWord_of_numeral (by simp)
    intro c' hc'
    rcases List.mem_cons.1 hc' with rfl | hc'
    · exact .inr (.inr (.inr rfl))
    · exact hcs.chars c' hc'
  | false => exact isWord_of_numeral (List.ne_nil_of_mem hc) hcs.chars

end Double

/-- A numeral with a fraction or an exponent is no integer literal. -/
theorem Integer.parse?_of_isNumeral {cs : List Char} (h : Decimal.IsNumeral cs) (negative : Bool) :
    parse? (if negative then '-' :: cs else cs) = none := by
  have hmark : ∀ c ∈ cs, c ≠ 'x' ∧ c ≠ 'X' := by
    intro c hc
    constructor
    · rintro rfl
      exact absurd (h.chars _ hc) (by decide)
    · rintro rfl
      exact absurd (h.chars _ hc) (by decide)
  have hdigits : cs.all Char.isDigit = false := by
    obtain ⟨c, hc, hmark⟩ := h.mark
    refine List.all_eq_false.2 ⟨c, hc, ?_⟩
    rcases hmark with rfl | rfl <;> decide
  rw [parse?, h.splitSign_eq]
  simp only [parseUnsigned?_eq hmark, parseDecimal?, hdigits, Bool.not_false, Bool.or_true, if_true,
    Option.map_none]

/-! ### All tokens -/

namespace Token

variable {t : Token}

/-- A token that can be written is read from its spelling. -/
theorem token_lexeme (h : t.Writable) : t.lexeme.token = .ok t := by
  cases t with
  | word w =>
    -- What does not look like a number stays a word.
    have hnumeric := h.2
    rw [lexeme, Lexeme.token, ofWord, hnumeric, String.ofList_toList]
    rfl
  | int n =>
    rw [lexeme, Lexeme.token, ofWord, looksNumeric_toString, Integer.parse?_toString h]
    rfl
  | float x =>
    obtain ⟨cs, hcs, htext⟩ := Double.toList_toText_of_isFinite h
    obtain ⟨c, cs', rfl, hc⟩ := hcs.exists_cons
    have hnumeric : looksNumeric x.toText.toList = true := by
      rw [htext, looksNumeric, hcs.splitSign_eq]
      simp [hc]
    -- Integers are tried first.
    have hint : Integer.parse? x.toText.toList = none := by
      rw [htext, Integer.parse?_of_isNumeral hcs]
    have hread : Double.parse? x.toText = some x := by
      rw [Double.parse?_toText, Double.quieted_of_isFinite h]
    rw [lexeme, Lexeme.token, ofWord, hnumeric, hint, String.ofList_toList, hread]
    rfl
  | lparen => rfl
  | rparen => rfl
  | arrow => rfl

/-- A token that can be written is scanned, before what ends a word. -/
theorem scan_toText (h : t.Writable) {rest : List Char} (hrest : Lexeme.EndsWord rest) :
    Lexeme.scan [] (t.toText.toList ++ rest) = t.lexeme :: Lexeme.scan [] rest := by
  cases t with
  | word w => exact Lexeme.scan_word h.1 hrest
  | int n => exact Lexeme.scan_word (isWord_toString n) hrest
  | float x => exact Lexeme.scan_word (Double.isWord_toText h) hrest
  | lparen => rfl
  | rparen => rfl
  | arrow => rfl

/-- Where a token is scanned, its text has no line break. -/
theorem ne_newline_of_mem_toText (h : t.Writable) {c : Char} (hc : c ∈ t.toText.toList) :
    c ≠ '\n' := by
  have hword : ∀ {cs : List Char}, IsWord cs → c ∈ cs → c ≠ '\n' := by
    rintro cs hcs hc rfl
    exact absurd (hcs.chars _ hc) (by decide)
  cases t with
  | word w => exact hword h.1 hc
  | int n => exact hword (isWord_toString n) hc
  | float x => exact hword (Double.isWord_toText h) hc
  | lparen | rparen | arrow =>
    rintro rfl
    exact absurd hc (by decide)

end Token

/-! ## Written tokens -/

/-- Tokens behind a closing parenthesis are written behind it. -/
theorem endsWord_renderTokens_rparen (ts : List Token) :
    Lexeme.EndsWord (renderTokens (.rparen :: ts)).toList := by
  intro c hc
  have hhead : (renderTokens (.rparen :: ts)).toList.head? = some ')' := by
    rw [renderTokens.eq_def]
    split
    · rename_i heq
      cases heq
    · rename_i heq
      cases heq
      decide
    · rename_i heq
      cases heq
    · rename_i heq
      cases heq
      rw [String.toList_append]
      rfl
    · rename_i heq
      cases heq
      rw [String.toList_append, String.toList_append]
      rfl
  rw [hhead] at hc
  cases hc
  exact .inr rfl

/-- Written tokens are scanned as their lexemes. -/
theorem scan_renderTokens {ts : List Token} (h : ∀ t ∈ ts, t.Writable) :
    Lexeme.scan [] (renderTokens ts).toList = ts.map Token.lexeme := by
  -- The cases are the ways in which tokens are joined.
  fun_induction renderTokens ts with
  | case1 => rfl
  | case2 t =>
    -- The last token stands before the end of the text.
    have hend : Lexeme.EndsWord [] := by simp [Lexeme.EndsWord]
    have hscan := Token.scan_toText (h t (by simp)) hend
    rw [List.append_nil] at hscan
    exact hscan
  | case3 ts hts ih =>
    -- Nothing stands behind an opening parenthesis.
    rw [String.toList_append, List.map_cons, ← ih fun t ht => h t (List.mem_cons_of_mem _ ht)]
    rfl
  | case4 t ts hts ih =>
    -- Nothing stands before a closing parenthesis, which ends a word itself.
    rw [String.toList_append, Token.scan_toText (h t (by simp)) (endsWord_renderTokens_rparen ts),
      ih fun t ht => h t (List.mem_cons_of_mem _ ht)]
    rfl
  | case5 t ts hts hopen hclose ih =>
    -- A blank stands between other tokens.
    have hblank : Lexeme.EndsWord (" ".toList ++ (renderTokens ts).toList) := by
      rintro c ⟨⟩
      exact .inl rfl
    have hskip : Lexeme.scan [] (" ".toList ++ (renderTokens ts).toList) =
        Lexeme.scan [] (renderTokens ts).toList := rfl
    rw [String.toList_append, String.toList_append, List.append_assoc,
      Token.scan_toText (h t (by simp)) hblank, hskip,
      ih fun t ht => h t (List.mem_cons_of_mem _ ht), List.map_cons]

/-- The lexemes of tokens that can be written are read as these tokens. -/
theorem mapM_token_lexeme {ts : List Token} (h : ∀ t ∈ ts, t.Writable) :
    (ts.map Token.lexeme).mapM Lexeme.token = .ok ts := by
  induction ts with
  | nil => rfl
  | cons t ts ih =>
    rw [List.map_cons, List.mapM_cons, Token.token_lexeme (h t (List.mem_cons_self ..)),
      ih fun t ht => h t (List.mem_cons_of_mem _ ht)]
    rfl

/-- Written tokens are read as the same tokens. -/
theorem tokenize_renderTokens {ts : List Token} (h : ∀ t ∈ ts, t.Writable) :
    tokenize (renderTokens ts).toList = .ok ts := by
  rw [tokenize, scan_renderTokens h, mapM_token_lexeme h]

/-- Written tokens are read as the same tokens behind an indentation. -/
theorem tokenize_indented {ts : List Token} (h : ∀ t ∈ ts, t.Writable) :
    tokenize (' ' :: ' ' :: (renderTokens ts).toList) = .ok ts := by
  rw [← tokenize_renderTokens h, tokenize, tokenize, Lexeme.scan_blank, Lexeme.scan_blank]

/-- Written tokens stand in one line. -/
theorem ne_newline_of_mem_renderTokens {ts : List Token} (h : ∀ t ∈ ts, t.Writable) {c : Char}
    (hc : c ∈ (renderTokens ts).toList) : c ≠ '\n' := by
  fun_induction renderTokens ts with
  | case1 => cases hc
  | case2 t => exact Token.ne_newline_of_mem_toText (h t (by simp)) hc
  | case3 ts hts ih =>
    rw [String.toList_append, List.mem_append] at hc
    rcases hc with hc | hc
    · rintro rfl
      exact absurd hc (by decide)
    · exact ih (fun t ht => h t (List.mem_cons_of_mem _ ht)) hc
  | case4 t ts hts ih =>
    rw [String.toList_append, List.mem_append] at hc
    rcases hc with hc | hc
    · exact Token.ne_newline_of_mem_toText (h t (by simp)) hc
    · exact ih (fun t ht => h t (List.mem_cons_of_mem _ ht)) hc
  | case5 t ts hts hopen hclose ih =>
    rw [String.toList_append, String.toList_append, List.mem_append, List.mem_append] at hc
    rcases hc with (hc | hc) | hc
    · exact Token.ne_newline_of_mem_toText (h t (by simp)) hc
    · rintro rfl
      exact absurd hc (by decide)
    · exact ih (fun t ht => h t (List.mem_cons_of_mem _ ht)) hc

/-! ## Words that were read -/

namespace Lexeme

/-- A word before lexemes is the open word or one of them. -/
theorem mem_close {word cs : List Char} {rest : List Lexeme} (h : .word cs ∈ close word rest) :
    word ≠ [] ∧ cs = word.reverse ∨ .word cs ∈ rest := by
  rw [close] at h
  split at h
  · exact .inr h
  · rename_i hne
    rcases List.mem_cons.1 h with heq | h
    · cases heq
      exact .inl ⟨by simpa using hne, rfl⟩
    · exact .inr h

/-- The characters of an open word, in reverse, are the beginning of a word before a text. -/
structure IsOpenWord (word text : List Char) : Prop where
  /-- Nothing separates words. -/
  chars : ∀ c ∈ word, isWordChar c = true
  /-- A minus sign does not stand before a closing angle bracket. -/
  noArrow : word.reverse.IsChain fun a b => ¬ (a = '-' ∧ b = '>')
  /-- Nor does one at the end of the open word. -/
  last : ¬ (word.head? = some '-' ∧ text.head? = some '>')

/-- Before any text, no open word is such a beginning. -/
theorem isOpenWord_nil (text : List Char) : IsOpenWord [] text := by
  refine ⟨by simp, by simp, ?_⟩
  rintro ⟨hc, -⟩
  cases hc

/-- An open word is still such a beginning when a character of a word is added. -/
theorem IsOpenWord.cons {word text : List Char} {c : Char} (h : IsOpenWord word (c :: text))
    (hc : isWordChar c = true) (hlast : ¬ (c = '-' ∧ text.head? = some '>')) :
    IsOpenWord (c :: word) text := by
  refine ⟨List.forall_mem_cons.2 ⟨hc, h.chars⟩, ?_, ?_⟩
  · rw [List.reverse_cons, List.isChain_append]
    refine ⟨h.noArrow, List.isChain_singleton _, ?_⟩
    rintro a ha b hb ⟨rfl, rfl⟩
    rw [List.getLast?_reverse] at ha
    exact h.last ⟨ha, hb⟩
  · rintro ⟨hc, hnext⟩
    exact hlast ⟨Option.some.inj hc, hnext⟩

/-- An open word that is closed is a word. -/
theorem IsOpenWord.isWord {word text : List Char} (h : IsOpenWord word text) (hne : word ≠ []) :
    IsWord word.reverse :=
  ⟨by simpa using hne, fun c hc => h.chars c (List.mem_reverse.1 hc), h.noArrow⟩

/-- The words of a text are words, if the open word is the beginning of one. -/
theorem isWord_of_mem_scan {word text cs : List Char} (hopen : IsOpenWord word text)
    (h : .word cs ∈ scan word text) : IsWord cs := by
  -- Every case but the last closes the open word and goes on without one.
  have hclose : ∀ {word text rest}, IsOpenWord word text → (.word cs ∈ rest → IsWord cs) →
      .word cs ∈ close word rest → IsWord cs := by
    intro word text rest hopen hrest h
    rcases mem_close h with ⟨hne, rfl⟩ | h
    · exact hopen.isWord hne
    · exact hrest h
  fun_induction scan word text with
  | case1 word => exact hclose hopen (by simp) h
  | case2 word text => exact hclose hopen (by simp) h
  | case3 word text ih => exact hclose hopen (by simpa using ih (isOpenWord_nil _)) h
  | case4 word text ih => exact hclose hopen (by simpa using ih (isOpenWord_nil _)) h
  | case5 word text ih => exact hclose hopen (by simpa using ih (isOpenWord_nil _)) h
  | case6 word c text hcomment hleft hright harrow hblank ih =>
    -- A blank.
    exact hclose hopen (ih (isOpenWord_nil _)) h
  | case7 word c text hcomment hleft hright harrow hblank ih =>
    -- A character that belongs to a word.
    have hc : isWordChar c = true :=
      isWordChar_iff.2 ⟨by simpa using hblank, hleft, hright, hcomment⟩
    refine ih (hopen.cons hc ?_) h
    rintro ⟨hc, hnext⟩
    cases text with
    | nil => cases hnext
    | cons c' text =>
      cases hnext
      exact harrow text hc rfl

end Lexeme

/-- A word that is read is spelled as it is. -/
theorem Token.writable_of_ofWord {cs : List Char} {w : String} (hcs : IsWord cs)
    (h : ofWord cs = .ok (.word w)) : (Token.word w).Writable := by
  rw [ofWord] at h
  split at h
  · rename_i hnumeric
    cases h
    refine ⟨?_, ?_⟩
    · rwa [String.toList_ofList]
    · rw [String.toList_ofList]
      simpa using hnumeric
  · split at h
    · cases h
    · split at h <;> cases h

/-- The words of a line that is read can be written. -/
theorem Token.writable_of_tokenize {line : List Char} {ts : List Token} {w : String}
    (h : tokenize line = .ok ts) (hw : .word w ∈ ts) : (Token.word w).Writable := by
  obtain ⟨l, hl, htoken⟩ := exists_mem_of_mapM_eq_ok h hw
  cases l with
  | word cs =>
    exact writable_of_ofWord (Lexeme.isWord_of_mem_scan (Lexeme.isOpenWord_nil _) hl) htoken
  | lparen => cases htoken
  | rparen => cases htoken
  | arrow => cases htoken

end RegisterMachine
