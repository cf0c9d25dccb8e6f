import RegisterMachine.Proofs.Assembly.Tokens
import Mathlib.Data.List.Forall2

/-! # Tokens in any letter case

The case of ASCII letters does not matter to what a line consists of. Characters that separate words
are no letters, and numerals are read alike in either case, so two lines that differ in case only
have the same tokens up to the case of words, or the same fault.

* `toLower_eq_iff`, `toLower_eq_small_iff` — which characters become a given one.
* `Integer.parse?_map_toLower`, `Double.parse?_foldCase` — numerals.
* `Lexeme.scan_map_toLower` — the pieces of a line.
* `Fault.mapWords`, `ResultsAgree` — results with the same faults, but for some change of words.
* `Token.Alike`, `tokenize_agrees` — the tokens of a line.
* `Vocabulary.name_of_read` — names in any letter case.
-/

namespace RegisterMachine

/-! ## Characters -/

/-- A capital ASCII letter becomes small where 32 is added to its number. -/
theorem toNat_toLower (c : Char) :
    c.toLower.toNat = if 65 ≤ c.toNat ∧ c.toNat ≤ 90 then c.toNat + 32 else c.toNat := by
  have hcapital : (c.val ≥ 'A'.val ∧ c.val ≤ 'Z'.val) ↔ 65 ≤ c.toNat ∧ c.toNat ≤ 90 := Iff.rfl
  unfold Char.toLower
  split
  · rename_i h
    have hrange := hcapital.1 h
    rw [if_pos hrange]
    show (c.val + 32).toNat = c.val.toNat + 32
    have hval : c.toNat = c.val.toNat := rfl
    rw [UInt32.toNat_add, Nat.mod_eq_of_lt]
    · rfl
    · show c.val.toNat + 32 < 4294967296
      omega
  · rename_i h
    rw [if_neg (mt hcapital.2 h)]

/-- Letters by their numbers. -/
theorem isAlpha_iff {c : Char} : c.isAlpha = true ↔
    (65 ≤ c.toNat ∧ c.toNat ≤ 90) ∨ (97 ≤ c.toNat ∧ c.toNat ≤ 122) := by
  show (decide (c.val ≥ 'A'.val ∧ c.val ≤ 'Z'.val) ||
    (decide (c.val ≥ 'a'.val) && decide (c.val ≤ 'z'.val))) = true ↔ _
  simp [UInt32.le_iff_toNat_le, ← Char.toNat_val]

/-- A character that is no letter is made from itself only. -/
theorem toLower_eq_iff {c k : Char} (hk : k.isAlpha = false) : c.toLower = k ↔ c = k := by
  have hnone : ¬ ((65 ≤ k.toNat ∧ k.toNat ≤ 90) ∨ (97 ≤ k.toNat ∧ k.toNat ≤ 122)) := by
    rw [← isAlpha_iff, hk]
    decide
  rw [← Char.toNat_inj, ← Char.toNat_inj, toNat_toLower]
  split <;> omega

/-- A small letter is made from itself and from its capital letter. -/
theorem toLower_eq_small_iff {c k : Char} (capital : Char) (hk : 97 ≤ k.toNat ∧ k.toNat ≤ 122)
    (hcapital : capital.toNat + 32 = k.toNat) : c.toLower = k ↔ c = k ∨ c = capital := by
  rw [← Char.toNat_inj, ← Char.toNat_inj, ← Char.toNat_inj, toNat_toLower]
  split <;> omega

/-- No capital letter is made. -/
theorem toLower_ne_capital {c k : Char} (hk : 65 ≤ k.toNat ∧ k.toNat ≤ 90) : c.toLower ≠ k := by
  rw [Ne, ← Char.toNat_inj, toNat_toLower]
  split <;> omega

/-- Small letters stay as they are. -/
@[simp] theorem toLower_toLower (c : Char) : c.toLower.toLower = c.toLower := by
  have hsmall := toNat_toLower c
  rw [← Char.toNat_inj, toNat_toLower c.toLower, if_neg]
  split at hsmall <;> omega

/-- A text that has been made small stays as it is. -/
@[simp] theorem map_toLower_map_toLower (cs : List Char) :
    (cs.map Char.toLower).map Char.toLower = cs.map Char.toLower := by
  rw [List.map_map]
  exact List.map_congr_left fun c _ => toLower_toLower c

/-- Folding a second time changes nothing. -/
@[simp] theorem foldCase_foldCase (s : String) : foldCase (foldCase s) = foldCase s := by
  rw [foldCase, toList_foldCase, map_toLower_map_toLower, foldCase]

/-- Words with the same characters up to their case. -/
theorem foldCase_ofList_eq_iff {cs cs' : List Char} :
    foldCase (String.ofList cs) = foldCase (String.ofList cs') ↔
      cs.map Char.toLower = cs'.map Char.toLower := by
  rw [← String.toList_inj, toList_foldCase, toList_foldCase, String.toList_ofList,
    String.toList_ofList]

/-- Letters are not blank. -/
@[simp] theorem isBlank_toLower (c : Char) : isBlank c.toLower = isBlank c := by
  simp only [isBlank, toNat_toLower]
  rw [Bool.eq_iff_iff]
  simp only [Bool.or_eq_true, Bool.and_eq_true, decide_eq_true_eq, beq_iff_eq]
  split <;> omega

/-- Decimal digits by their numbers. -/
theorem isDigit_iff {c : Char} : c.isDigit = true ↔ 48 ≤ c.toNat ∧ c.toNat ≤ 57 := by
  simp [Char.isDigit, UInt32.le_iff_toNat_le, ← Char.toNat_val]

/-- Letters are no decimal digits. -/
@[simp] theorem isDigit_toLower (c : Char) : c.toLower.isDigit = c.isDigit := by
  rw [Bool.eq_iff_iff, isDigit_iff, isDigit_iff, toNat_toLower]
  split <;> omega

/-- Whether a text consists of digits does not depend on letter case. -/
@[simp] theorem all_isDigit_map_toLower (cs : List Char) :
    (cs.map Char.toLower).all Char.isDigit = cs.all Char.isDigit := by
  rw [List.all_map]
  exact congrArg cs.all (funext isDigit_toLower)

/-- Digits stay as they are. -/
theorem map_toLower_of_all_isDigit {cs : List Char} (h : cs.all Char.isDigit = true) :
    cs.map Char.toLower = cs := by
  rw [List.all_eq_true] at h
  exact (List.map_congr_left fun c hc => Double.toLower_of_isDigit (h c hc)).trans (List.map_id cs)

/-! ## Numerals -/

/-- Signs are no letters. -/
theorem splitSign_map_toLower (cs : List Char) :
    splitSign (cs.map Char.toLower) =
      ((splitSign cs).1, (splitSign cs).2.map Char.toLower) := by
  cases cs with
  | nil => rfl
  | cons c cs =>
    by_cases hminus : c = '-'
    · subst hminus
      rfl
    · by_cases hplus : c = '+'
      · subst hplus
        rfl
      · have hminus' : c.toLower ≠ '-' := mt (toLower_eq_iff rfl).1 hminus
        have hplus' : c.toLower ≠ '+' := mt (toLower_eq_iff rfl).1 hplus
        simp [splitSign, hminus, hplus, hminus', hplus']

/-- Whether a word must be a number does not depend on letter case. -/
theorem looksNumeric_map_toLower (cs : List Char) :
    looksNumeric (cs.map Char.toLower) = looksNumeric cs := by
  rw [looksNumeric, looksNumeric, splitSign_map_toLower]
  cases (splitSign cs).2 with
  | nil => rfl
  | cons c cs =>
    have hpoint : (c.toLower == '.') = (c == '.') := by
      rw [Bool.eq_iff_iff, beq_iff_eq, beq_iff_eq, toLower_eq_iff rfl]
    simp only [List.map_cons, isDigit_toLower, hpoint]

namespace Integer

/-- Hexadecimal digits by their numbers. -/
theorem isHexDigit_iff {c : Char} : isHexDigit c = true ↔
    ((48 ≤ c.toNat ∧ c.toNat ≤ 57) ∨ (97 ≤ c.toNat ∧ c.toNat ≤ 102)) ∨
      (65 ≤ c.toNat ∧ c.toNat ≤ 70) := by
  simp [isHexDigit, isDigit_iff, Char.le_def, UInt32.le_iff_toNat_le, ← Char.toNat_val]

/-- Hexadecimal digits may be letters of either case. -/
@[simp] theorem isHexDigit_toLower (c : Char) : isHexDigit c.toLower = isHexDigit c := by
  rw [Bool.eq_iff_iff, isHexDigit_iff, isHexDigit_iff, toNat_toLower]
  split <;> omega

/-- The value of a hexadecimal digit by its number. -/
theorem hexValue_eq (c : Char) : hexValue c =
    if 48 ≤ c.toNat ∧ c.toNat ≤ 57 then c.toNat - 48
    else if 97 ≤ c.toNat then c.toNat - 97 + 10
    else c.toNat - 65 + 10 := by
  have hsmall : 'a' ≤ c ↔ 97 ≤ c.toNat := Iff.rfl
  simp only [hexValue, isDigit_iff, hsmall]
  rfl

/-- A hexadecimal digit has the same value in either case. -/
theorem hexValue_toLower {c : Char} (h : isHexDigit c = true) :
    hexValue c.toLower = hexValue c := by
  have hrange := isHexDigit_iff.1 h
  rw [hexValue_eq, hexValue_eq, toNat_toLower]
  grind

/-- Hexadecimal digits denote the same number in either case. -/
theorem hexToNat_map_toLower {cs : List Char} (h : cs.all isHexDigit = true) (start : Nat) :
    hexToNat start (cs.map Char.toLower) = hexToNat start cs := by
  induction cs generalizing start with
  | nil => rfl
  | cons c cs ih =>
    rw [List.all_cons, Bool.and_eq_true] at h
    rw [List.map_cons, hexToNat, hexToNat, hexValue_toLower h.1]
    exact ih h.2 _

/-- What follows the mark of a hexadecimal literal is read alike in either case. -/
theorem parseHex?_map_toLower (cs : List Char) :
    parseHex? (cs.map Char.toLower) = parseHex? cs := by
  have hall (digits : List Char) :
      (digits.map Char.toLower).all isHexDigit = digits.all isHexDigit := by
    rw [List.all_map]
    exact congrArg digits.all (funext isHexDigit_toLower)
  simp only [parseHex?, splitSign_map_toLower, hall, List.isEmpty_map]
  split
  · rfl
  · rename_i h
    rw [Bool.or_eq_true, not_or, Bool.not_eq_true', Bool.not_eq_false] at h
    rw [hexToNat_map_toLower h.2]

/-- Decimal digits are no letters. -/
theorem parseDecimal?_map_toLower (cs : List Char) :
    parseDecimal? (cs.map Char.toLower) = parseDecimal? cs := by
  by_cases h : cs.all Char.isDigit = true
  · rw [map_toLower_of_all_isDigit h]
  · simp only [parseDecimal?, all_isDigit_map_toLower, h, List.isEmpty_map, Bool.not_false,
      Bool.or_true, if_true]

/-- An integer literal without sign is read alike in either case: so is the letter that marks a
hexadecimal one. -/
theorem parseUnsigned?_map_toLower (cs : List Char) :
    parseUnsigned? (cs.map Char.toLower) = parseUnsigned? cs := by
  fun_cases parseUnsigned? cs with
  | case1 cs => exact parseHex?_map_toLower cs
  | case2 cs => exact parseHex?_map_toLower cs
  | case3 cs hsmall hcapital =>
    rw [← parseDecimal?_map_toLower, parseUnsigned?]
    · -- The mark of a hexadecimal literal is made from one of either case.
      intro digits hdigits
      obtain ⟨c, cs', rfl, hc, hcs'⟩ := List.map_eq_cons_iff.1 hdigits
      obtain ⟨x, digits', rfl, hx, -⟩ := List.map_eq_cons_iff.1 hcs'
      rw [(toLower_eq_iff rfl).1 hc] at hsmall hcapital
      rcases (toLower_eq_small_iff 'X' (by decide) rfl).1 hx with rfl | rfl
      · exact hsmall _ rfl
      · exact hcapital _ rfl
    · intro digits hdigits
      obtain ⟨c, cs', rfl, -, hcs'⟩ := List.map_eq_cons_iff.1 hdigits
      obtain ⟨x, digits', rfl, hx, -⟩ := List.map_eq_cons_iff.1 hcs'
      exact toLower_ne_capital (by decide) hx

/-- Integer literals are read alike in either case. -/
theorem parse?_map_toLower (cs : List Char) : parse? (cs.map Char.toLower) = parse? cs := by
  simp only [parse?, splitSign_map_toLower, parseUnsigned?_map_toLower]

end Integer

/-- Digits at the front of a text, and what follows them. -/
theorem spanDigits_map_toLower (cs : List Char) :
    spanDigits (cs.map Char.toLower) =
      ((spanDigits cs).1, (spanDigits cs).2.map Char.toLower) := by
  have hdigit : Char.isDigit ∘ Char.toLower = Char.isDigit := funext isDigit_toLower
  rw [spanDigits, List.takeWhile_map, List.dropWhile_map, hdigit,
    map_toLower_of_all_isDigit List.all_takeWhile, spanDigits]

namespace Decimal

/-- The exponent part of a numeral is read alike in either case: so is its letter. -/
theorem parseExponent?_map_toLower (cs : List Char) :
    parseExponent? (cs.map Char.toLower) = parseExponent? cs := by
  cases cs with
  | nil => rfl
  | cons c cs =>
    have hletter : (c.toLower == 'e' || c.toLower == 'E') = (c == 'e' || c == 'E') := by
      rw [Bool.eq_iff_iff, Bool.or_eq_true, Bool.or_eq_true, beq_iff_eq, beq_iff_eq, beq_iff_eq,
        beq_iff_eq, toLower_eq_small_iff 'E' (by decide) rfl]
      exact or_iff_left (toLower_ne_capital (by decide))
    simp only [List.map_cons, parseExponent?, splitSign_map_toLower, hletter, List.isEmpty_map,
      all_isDigit_map_toLower]
    by_cases h : (splitSign cs).2.all Char.isDigit = true
    · rw [map_toLower_of_all_isDigit h]
    · simp [h]

/-- A numeral without sign is read alike in either case. -/
theorem parse?_map_toLower (cs : List Char) : parse? (cs.map Char.toLower) = parse? cs := by
  simp only [parse?, spanDigits_map_toLower]
  cases (spanDigits cs).2 with
  | nil => rfl
  | cons c rest =>
    by_cases hpoint : c = '.'
    · subst hpoint
      have hlower : Char.toLower '.' = '.' := rfl
      simp only [List.map_cons, hlower, spanDigits_map_toLower, parseExponent?_map_toLower]
    · have hpoint' : c.toLower ≠ '.' := mt (toLower_eq_iff rfl).1 hpoint
      have hexponent := parseExponent?_map_toLower (c :: rest)
      rw [List.map_cons] at hexponent
      simp [hpoint, hpoint', hexponent]

end Decimal

/-- Doubles are read alike in either case, and so are the words for those that are not finite. -/
theorem Double.parse?_foldCase (s : String) : Double.parse? (foldCase s) = Double.parse? s := by
  have hfold : ∀ cs, foldCase (String.ofList (cs.map Char.toLower)) = foldCase (String.ofList cs) :=
    fun cs => foldCase_ofList_eq_iff.2 (map_toLower_map_toLower cs)
  simp only [parse?, toList_foldCase, splitSign_map_toLower, hfold, Decimal.parse?_map_toLower]

/-! ## Pieces of a line -/

namespace Lexeme

/-- A piece of a line with all its letters small. -/
def fold : Lexeme → Lexeme
  | .word cs => .word (cs.map Char.toLower)
  | l => l

/-- The end of a word in either case. -/
theorem map_fold_close (word : List Char) (rest : List Lexeme) :
    (close word rest).map fold = close (word.map Char.toLower) (rest.map fold) := by
  simp only [close, List.isEmpty_map]
  split
  · rfl
  · rw [List.map_cons, fold, List.map_reverse]

/-- A character of a word or a blank is one in either case. -/
theorem scan_toLower_cons {c : Char} {text : List Char} (hcomment : c ≠ ';') (hopen : c ≠ '(')
    (hclose : c ≠ ')') (harrow : ∀ cs, c = '-' → text ≠ '>' :: cs) (word : List Char) :
    scan word (c.toLower :: text.map Char.toLower) =
      if isBlank c then close word (scan [] (text.map Char.toLower))
      else scan (c.toLower :: word) (text.map Char.toLower) := by
  rw [scan_other, isBlank_toLower]
  · exact mt (toLower_eq_iff rfl).1 hcomment
  · exact mt (toLower_eq_iff rfl).1 hopen
  · exact mt (toLower_eq_iff rfl).1 hclose
  · rintro ⟨hc, hhead⟩
    rw [List.head?_map, Option.map_eq_some_iff] at hhead
    obtain ⟨c', hc', hlower⟩ := hhead
    obtain ⟨cs, htext⟩ := List.head?_eq_some_iff.1 hc'
    rw [(toLower_eq_iff rfl).1 hlower] at htext
    exact harrow cs ((toLower_eq_iff rfl).1 hc) htext

/-- What separates the pieces of a line is no letter, so they are the same in either case. -/
theorem scan_map_toLower (word text : List Char) :
    scan (word.map Char.toLower) (text.map Char.toLower) = (scan word text).map fold := by
  fun_induction scan word text with
  | case1 word => exact (map_fold_close word []).symm
  | case2 word text => exact (map_fold_close word []).symm
  | case3 word text ih =>
    rw [map_fold_close, List.map_cons (f := fold), ← ih]
    rfl
  | case4 word text ih =>
    rw [map_fold_close, List.map_cons (f := fold), ← ih]
    rfl
  | case5 word text ih =>
    rw [map_fold_close, List.map_cons (f := fold), ← ih]
    rfl
  | case6 word c text hcomment hopen hclose harrow hblank ih =>
    rw [List.map_cons, scan_toLower_cons hcomment hopen hclose harrow, if_pos hblank,
      map_fold_close, ← ih]
    rfl
  | case7 word c text hcomment hopen hclose harrow hblank ih =>
    rw [List.map_cons, scan_toLower_cons hcomment hopen hclose harrow, if_neg hblank, ← ih]
    rfl

end Lexeme

/-! ## Faults up to letter case -/

/-- A name error with its word changed. -/
def NameError.mapWord (g : String → String) : NameError → NameError
  | .register w => .register (g w)
  | .dataType w => .dataType (g w)
  | .chunk w => .chunk (g w)
  | .comparison w => .comparison (g w)

/-- A fault with the words changed that it takes from the text. -/
def Fault.mapWords (g : String → String) : Fault → Fault
  | .unknownMnemonic w => .unknownMnemonic (g w)
  | .unknownOperation w => .unknownOperation (g w)
  | .unknownAddressing w => .unknownAddressing (g w)
  | .unknownCondition w => .unknownCondition (g w)
  | .unknownInitializer w => .unknownInitializer (g w)
  | .badName e => .badName (e.mapWord g)
  | .missing expected => .missing expected
  | .invalidNumber w => .invalidNumber (g w)
  | .unexpected token => .unexpected (g token)
  | .outsideFunction => .outsideFunction
  | .insideFunction name => .insideFunction (g name)
  | .unterminatedFunction name => .unterminatedFunction (g name)

/-- A fault with all letters small in the words that it takes from the text. -/
def Fault.fold : Fault → Fault := mapWords foldCase

/-- Two results agree up to a map of errors: they succeed in related values, or fail with errors
that the map makes equal. -/
def ResultsAgree {ε ε' α β : Type} (f : ε → ε') (R : α → β → Prop) (x : Except ε α)
    (y : Except ε β) : Prop :=
  Corresponds id R (x.mapError f) (y.mapError f)

namespace ResultsAgree

variable {ε ε' α β α' β' : Type} {f : ε → ε'} {R : α → β → Prop} {S : α' → β' → Prop}
  {x : Except ε α} {y : Except ε β}

/-- Related values. -/
theorem ok {a : α} {b : β} (h : R a b) : ResultsAgree f R (.ok a) (.ok b) := Corresponds.ok h

/-- Errors that the map makes equal. -/
theorem error {e e' : ε} (h : f e = f e') : ResultsAgree f R (.error e) (.error e') := by
  rw [ResultsAgree, mapError_error, mapError_error, h]
  exact .error _

/-- What results that agree can be. -/
theorem cases (h : ResultsAgree f R x y) :
    (∃ a b, x = .ok a ∧ y = .ok b ∧ R a b) ∨
      ∃ e e', x = .error e ∧ y = .error e' ∧ f e = f e' := by
  cases x with
  | ok a =>
    cases y with
    | ok b =>
      cases h with
      | ok related => exact .inl ⟨a, b, rfl, rfl, related⟩
    | error e => cases h
  | error e =>
    cases y with
    | ok b => cases h
    | error e' =>
      refine .inr ⟨e, e', rfl, rfl, ?_⟩
      rw [ResultsAgree, mapError_error, mapError_error] at h
      generalize f e = u at h ⊢
      generalize f e' = v at h ⊢
      cases h
      rfl

/-- A result agrees with itself. -/
theorem refl {R : α → α → Prop} (hR : ∀ a, R a a) (x : Except ε α) : ResultsAgree f R x x := by
  cases x with
  | ok a => exact .ok (hR a)
  | error e => exact .error rfl

/-- Results that are used by others agree if the uses do. -/
theorem bind {k : α → Except ε α'} {k' : β → Except ε β'} (h : ResultsAgree f R x y)
    (hk : ∀ a b, R a b → ResultsAgree f S (k a) (k' b)) :
    ResultsAgree f S (x >>= k) (y >>= k') := by
  rw [ResultsAgree, mapError_bind, mapError_bind]
  exact Corresponds.bind h hk

/-- Results agree after a change of their values. -/
theorem map {g : α → α'} {g' : β → β'} (h : ResultsAgree f R x y)
    (hg : ∀ a b, R a b → S (g a) (g' b)) : ResultsAgree f S (x.map g) (y.map g') := by
  rcases h.cases with ⟨a, b, rfl, rfl, hab⟩ | ⟨e, e', rfl, rfl, he⟩
  · exact .ok (hg a b hab)
  · exact .error he

/-- Results agree after a change of their errors that the maps respect. -/
theorem mapError {ε₁ ε₁' : Type} {f₁ : ε₁ → ε₁'} {g : ε → ε₁} (h : ResultsAgree f R x y)
    (hg : ∀ e e', f e = f e' → f₁ (g e) = f₁ (g e')) :
    ResultsAgree f₁ R (x.mapError g) (y.mapError g) := by
  rcases h.cases with ⟨a, b, rfl, rfl, hab⟩ | ⟨e, e', rfl, rfl, he⟩
  · exact .ok hab
  · exact .error (hg e e' he)

/-- Lists of results agree if their members do. -/
theorem mapM {γ δ : Type} {T : γ → δ → Prop} {g : γ → Except ε α} {g' : δ → Except ε β}
    {l : List γ} {l' : List δ} (hg : ∀ c d, T c d → ResultsAgree f R (g c) (g' d))
    (hl : List.Forall₂ T l l') : ResultsAgree f (List.Forall₂ R) (l.mapM g) (l'.mapM g') := by
  induction hl with
  | nil => exact .ok .nil
  | cons h hl ih =>
    rw [List.mapM_cons, List.mapM_cons]
    exact (hg _ _ h).bind fun a b hab => ih.bind fun as bs habs => .ok (.cons hab habs)

end ResultsAgree

/-! ## Tokens up to letter case -/

/-- Two tokens are alike if they are words that differ in letter case only, or the same. -/
inductive Token.Alike : Token → Token → Prop where
  /-- Two spellings of a word. -/
  | word {w w' : String} (spelling : foldCase w = foldCase w') : Alike (.word w) (.word w')
  /-- An integer literal. -/
  | int (n : Int) : Alike (.int n) (.int n)
  /-- A literal for a double. -/
  | float (x : Double) : Alike (.float x) (.float x)
  /-- An opening parenthesis. -/
  | lparen : Alike .lparen .lparen
  /-- A closing parenthesis. -/
  | rparen : Alike .rparen .rparen
  /-- An arrow. -/
  | arrow : Alike .arrow .arrow

/-- Tokens that are alike are spelled alike. -/
theorem Token.Alike.foldCase_toText {t t' : Token} (h : t.Alike t') :
    foldCase t.toText = foldCase t'.toText := by
  cases h with
  | word spelling => exact spelling
  | int | float | lparen | rparen | arrow => rfl

/-- Two spellings of a word are two spellings of a word, or the same number, or no numbers. -/
theorem Token.ofWord_agrees {cs cs' : List Char}
    (h : cs.map Char.toLower = cs'.map Char.toLower) :
    ResultsAgree Fault.fold Alike (ofWord cs) (ofWord cs') := by
  have hspelling : foldCase (String.ofList cs) = foldCase (String.ofList cs') :=
    foldCase_ofList_eq_iff.2 h
  have hnumeric : looksNumeric cs = looksNumeric cs' := by
    rw [← looksNumeric_map_toLower, h, looksNumeric_map_toLower]
  have hint : Integer.parse? cs = Integer.parse? cs' := by
    rw [← Integer.parse?_map_toLower, h, Integer.parse?_map_toLower]
  have hdouble : Double.parse? (String.ofList cs) = Double.parse? (String.ofList cs') := by
    rw [← Double.parse?_foldCase, hspelling, Double.parse?_foldCase]
  rw [ofWord, ofWord, hnumeric, hint, hdouble]
  split
  · exact .ok (.word hspelling)
  · split
    · exact .ok (.int _)
    · split
      · exact .ok (.float _)
      · exact .error (congrArg Fault.invalidNumber hspelling)

/-- Pieces of a line that differ in letter case only are tokens that are alike. -/
theorem Lexeme.token_agrees {l l' : Lexeme} (h : l.fold = l'.fold) :
    ResultsAgree Fault.fold Token.Alike l.token l'.token := by
  cases l with
  | word cs =>
    cases l' with
    | word cs' => exact Token.ofWord_agrees (word.inj h)
    | lparen | rparen | arrow => cases h
  | lparen =>
    cases l' <;> cases h
    exact .ok .lparen
  | rparen =>
    cases l' <;> cases h
    exact .ok .rparen
  | arrow =>
    cases l' <;> cases h
    exact .ok .arrow

/-- Lines that differ in letter case only consist of tokens that are alike, or have the same
fault. -/
theorem tokenize_agrees {line line' : List Char}
    (h : line.map Char.toLower = line'.map Char.toLower) :
    ResultsAgree Fault.fold (List.Forall₂ Token.Alike) (tokenize line) (tokenize line') := by
  refine ResultsAgree.mapM (fun l l' => Lexeme.token_agrees) ?_
  have hfold : (Lexeme.scan [] line).map Lexeme.fold = (Lexeme.scan [] line').map Lexeme.fold := by
    rw [← Lexeme.scan_map_toLower, ← Lexeme.scan_map_toLower, h]
  rwa [← List.forall₂_eq_eq_eq, List.forall₂_map_left_iff, List.forall₂_map_right_iff] at hfold

/-! ## Vocabularies -/

/-- A register is looked up in its vocabulary. -/
theorem Register.read_eq (w : String) :
    read w = (Vocabulary.find? w).elim (.error (.register w)) .ok := by
  rw [read]
  cases (Vocabulary.find? w : Option Register) <;> rfl

/-- So is a data type. -/
theorem DataType.read_eq (w : String) :
    read w = (Vocabulary.find? w).elim (.error (.dataType w)) .ok := by
  rw [read]
  cases (Vocabulary.find? w : Option DataType) <;> rfl

/-- So is a chunk. -/
theorem Chunk.read_eq (w : String) :
    read w = (Vocabulary.find? w).elim (.error (.chunk w)) .ok := by
  rw [read]
  cases (Vocabulary.find? w : Option Chunk) <;> rfl

/-- So is a comparison. -/
theorem Comparison.read_eq (w : String) :
    read w = (Vocabulary.find? w).elim (.error (.comparison w)) .ok := by
  rw [read]
  cases (Vocabulary.find? w : Option Comparison) <;> rfl

/-- A member of a vocabulary is read from its name in any letter case. -/
theorem Vocabulary.name_of_read {α : Type} [Vocabulary α] {read : String → Except NameError α}
    {unknown : String → NameError} {w : String} {a : α}
    (hread : ∀ w, read w = (Vocabulary.find? w).elim (.error (unknown w)) .ok)
    (h : read w = .ok a) : Vocabulary.name a = foldCase w := by
  rw [hread] at h
  cases hfind : (Vocabulary.find? w : Option α) with
  | none =>
    rw [hfind] at h
    cases h
  | some a' =>
    rw [hfind] at h
    cases h
    exact Vocabulary.name_of_find? hfind

end RegisterMachine
