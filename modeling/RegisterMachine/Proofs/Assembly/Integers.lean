import RegisterMachine.Proofs.LetterCase.Tokens
import Mathlib.Data.Nat.Digits.Lemmas

/-! # Integer literals

An integer literal is written with at most one sign, and behind it with decimal digits, or with the
mark `0x` and hexadecimal digits. All of these are read as the numbers they denote, up to the
greatest magnitude. But the digits behind a mark are read by a reader of signed numbers, so they may
have a sign of their own, and no other word is read as an integer.

* `Integer.IsDigit`, `Integer.Denotes` — digit strings in positional notation.
* `Integer.IsSign`, `Integer.IsMagnitude`, `Integer.IsLiteral` — the grammar of integer literals.
* `Integer.IsTwiceSigned` — words with a second sign behind the mark.
* `Integer.parseDecimal?_eq_some_iff`, `Integer.parseHex?_eq_some_iff` — what the two readers of
  digits accept.
* `Integer.NegationOverflows`, `Integer.parse?_eq` — the sign before a number, and when it wraps.
* `Integer.literals_exact` — which words are integers, and which numbers they are.
-/

namespace RegisterMachine

namespace Integer

variable {base d m start : Nat} {c x : Char} {cs digits sign : List Char} {n k : Int}
  {negative : Bool}

/-! ## Positional notation -/

/-- The digits in the order of their values, with small letters. -/
def smallDigits : List Char :=
  ['0', '1', '2', '3', '4', '5', '6', '7', '8', '9', 'a', 'b', 'c', 'd', 'e', 'f']

/-- The digits in the order of their values, with capital letters. -/
def capitalDigits : List Char :=
  ['0', '1', '2', '3', '4', '5', '6', '7', '8', '9', 'A', 'B', 'C', 'D', 'E', 'F']

/-- A character is the digit for a number in a base. -/
def IsDigit (base : Nat) (c : Char) (d : Nat) : Prop :=
  d < base ∧ (smallDigits[d]? = some c ∨ capitalDigits[d]? = some c)

instance (base : Nat) (c : Char) (d : Nat) : Decidable (IsDigit base c d) :=
  inferInstanceAs (Decidable (_ ∧ _))

/-- A text denotes a number in positional notation: it has at least one digit, and the last one
counts units. -/
def Denotes (base : Nat) (cs : List Char) (m : Nat) : Prop :=
  cs ≠ [] ∧ ∃ ds, List.Forall₂ (IsDigit base) cs ds ∧ m = Nat.ofDigits base ds.reverse

/-! ## The grammar of literals -/

/-- A text is a sign before a number, or there is none, and whether it is a minus sign. -/
inductive IsSign : List Char → Bool → Prop where
  /-- No sign. -/
  | none : IsSign [] false
  /-- A plus sign. -/
  | plus : IsSign ['+'] false
  /-- A minus sign. -/
  | minus : IsSign ['-'] true

/-- A number behind a sign. -/
def withSign (negative : Bool) (n : Int) : Int := if negative then -n else n

/-- A number of 64 bits behind a sign. -/
def withSignWrapped (negative : Bool) (n : Int) : Int :=
  if negative then (-n).bmod 18446744073709551616 else n

/-- A text is an integer literal without sign: decimal digits, or the mark of a hexadecimal literal
and hexadecimal digits. -/
inductive IsMagnitude : List Char → Nat → Prop where
  /-- Decimal digits. -/
  | decimal {cs : List Char} {m : Nat} (h : Denotes 10 cs m) : IsMagnitude cs m
  /-- Hexadecimal digits behind their mark. -/
  | hexadecimal {x : Char} {cs : List Char} {m : Nat} (hx : x = 'x' ∨ x = 'X')
    (h : Denotes 16 cs m) : IsMagnitude ('0' :: x :: cs) m

/-- A text is an integer literal for a number: one without sign, behind at most one sign. -/
inductive IsLiteral : List Char → Int → Prop where
  /-- A sign, if there is one, and a magnitude. -/
  | intro {sign cs : List Char} {negative : Bool} {m : Nat} (hsign : IsSign sign negative)
    (h : IsMagnitude cs m) (hle : m ≤ maxMagnitude) : IsLiteral (sign ++ cs) (withSign negative m)

/-- A text is read as a number though it is no literal: behind the mark of hexadecimal digits there
is a second sign. Behind a minus sign there is one more number than behind others, the least one. -/
inductive IsTwiceSigned : List Char → Int → Prop where
  /-- A sign, if there is one, the mark, another sign, and hexadecimal digits. -/
  | intro {sign sign' cs : List Char} {x : Char} {negative negative' : Bool} {m : Nat}
    (hsign : IsSign sign negative) (hx : x = 'x' ∨ x = 'X') (hsign' : IsSign sign' negative')
    (hne : sign' ≠ []) (h : Denotes 16 cs m)
    (hle : m ≤ maxMagnitude ∨ negative' = true ∧ m = maxMagnitude + 1) :
    IsTwiceSigned (sign ++ '0' :: x :: (sign' ++ cs)) (withSign negative (withSign negative' m))

/-- The number behind a minus sign has no counterpart among the numbers of 64 bits: it is the least
of them. -/
def NegationOverflows (cs : List Char) : Prop :=
  (splitSign cs).1 = true ∧ parseUnsigned? (splitSign cs).2 = some (-(maxMagnitude + 1 : Int))

instance : DecidablePred NegationOverflows := fun _ => inferInstanceAs (Decidable (_ ∧ _))

/-! ## Reading digits -/

/-- Digits are read one after the other from the first one. -/
theorem ofDigits_reverse_eq_foldl (base start : Nat) (ds : List Nat) :
    ds.foldl (fun n d => base * n + d) start =
      base ^ ds.length * start + Nat.ofDigits base ds.reverse := by
  induction ds generalizing start with
  | nil => simp
  | cons d ds ih =>
    rw [List.foldl_cons, ih, List.reverse_cons, Nat.ofDigits_append, Nat.ofDigits_singleton,
      List.length_reverse, List.length_cons]
    ring

/-- A text of which each character is known to be a digit or not denotes a number if all are. -/
theorem denotes_iff {isDigit : Char → Bool} {value : Char → Nat}
    (hdigit : ∀ c d, IsDigit base c d ↔ isDigit c = true ∧ d = value c) :
    Denotes base cs m ↔
      (cs.isEmpty = false ∧ cs.all isDigit = true) ∧
        m = (cs.map value).foldl (fun n d => base * n + d) 0 := by
  have hdigits : ∀ ds, List.Forall₂ (IsDigit base) cs ds ↔
      cs.all isDigit = true ∧ ds = cs.map value := by
    intro ds
    induction cs generalizing ds with
    | nil => simp
    | cons c cs ih =>
      rw [List.forall₂_cons_left_iff]
      simp only [hdigit, ih, List.all_cons, Bool.and_eq_true, List.map_cons]
      constructor
      · rintro ⟨d, ds, ⟨hc, rfl⟩, ⟨hcs, rfl⟩, rfl⟩
        exact ⟨⟨hc, hcs⟩, rfl⟩
      · rintro ⟨⟨hc, hcs⟩, rfl⟩
        exact ⟨_, _, ⟨hc, rfl⟩, ⟨hcs, rfl⟩, rfl⟩
  rw [Denotes, ofDigits_reverse_eq_foldl, Nat.mul_zero, Nat.zero_add, and_assoc]
  simp only [hdigits, and_assoc, exists_and_left, exists_eq_left]
  simp

/-- Decimal digits are hexadecimal digits. -/
theorem isHexDigit_of_isDigit (h : c.isDigit = true) : isHexDigit c = true := by
  rw [isHexDigit, h, Bool.true_or, Bool.true_or]

/-- Hexadecimal digits are those with a value. -/
theorem isDigit_sixteen_iff (c : Char) (d : Nat) :
    IsDigit 16 c d ↔ isHexDigit c = true ∧ d = hexValue c := by
  constructor
  · rintro ⟨hd, hc⟩
    interval_cases d <;> rcases hc with hc | hc <;> cases hc <;> decide
  · rintro ⟨hc, rfl⟩
    -- A character is known by its number.
    have hrange := isHexDigit_iff.1 hc
    rw [← c.ofNat_toNat]
    generalize c.toNat = k at hrange
    rcases hrange with (⟨hlo, hhi⟩ | ⟨hlo, hhi⟩) | ⟨hlo, hhi⟩ <;> interval_cases k <;> decide

/-- Decimal digits are the hexadecimal digits with a value below ten. -/
theorem isDigit_ten_iff (c : Char) (d : Nat) :
    IsDigit 10 c d ↔ c.isDigit = true ∧ d = c.toNat - '0'.toNat := by
  have hten : IsDigit 10 c d ↔ IsDigit 16 c d ∧ d < 10 := by
    constructor
    · rintro ⟨hd, hc⟩
      exact ⟨⟨by omega, hc⟩, hd⟩
    · rintro ⟨⟨-, hc⟩, hd⟩
      exact ⟨hd, hc⟩
  have hzero : '0'.toNat = 48 := rfl
  rw [hten, isDigit_sixteen_iff, isHexDigit_iff, hexValue_eq, isDigit_iff, hzero]
  split <;> (try split) <;> omega

/-- Decimal digits are read as a fold. -/
theorem digitsToNat_eq_foldl (start : Nat) (cs : List Char) :
    digitsToNat start cs =
      (cs.map fun c => c.toNat - '0'.toNat).foldl (fun n d => 10 * n + d) start := by
  induction cs generalizing start with
  | nil => rfl
  | cons c cs ih => exact ih _

/-- Hexadecimal digits are read as a fold. -/
theorem hexToNat_eq_foldl (start : Nat) (cs : List Char) :
    hexToNat start cs = (cs.map hexValue).foldl (fun n d => 16 * n + d) start := by
  induction cs generalizing start with
  | nil => rfl
  | cons c cs ih => exact ih _

/-- Decimal digit strings and what they denote. -/
theorem denotes_ten_iff :
    Denotes 10 cs m ↔
      (cs.isEmpty = false ∧ cs.all Char.isDigit = true) ∧ m = digitsToNat 0 cs := by
  rw [denotes_iff isDigit_ten_iff, digitsToNat_eq_foldl]

/-- Hexadecimal digit strings and what they denote. -/
theorem denotes_sixteen_iff :
    Denotes 16 cs m ↔ (cs.isEmpty = false ∧ cs.all isHexDigit = true) ∧ m = hexToNat 0 cs := by
  rw [denotes_iff isDigit_sixteen_iff, hexToNat_eq_foldl]

/-- A digit string begins with a digit. -/
theorem Denotes.exists_cons (h : Denotes base cs m) :
    ∃ c cs' d, cs = c :: cs' ∧ IsDigit base c d := by
  obtain ⟨hne, ds, hds, -⟩ := h
  cases hds with
  | nil => exact absurd rfl hne
  | cons hd _ => exact ⟨_, _, _, rfl, hd⟩

/-- Decimal digits are read as the number that they denote. -/
theorem parseDecimal?_eq_some_iff :
    parseDecimal? cs = some n ↔ ∃ m, Denotes 10 cs m ∧ m ≤ maxMagnitude ∧ n = m := by
  simp only [denotes_ten_iff, parseDecimal?]
  split
  · rename_i h
    simp only [reduceCtorEq, false_iff]
    rintro ⟨m, ⟨⟨hne, hall⟩, -⟩, -⟩
    simp [hne, hall] at h
  · rename_i h
    simp only [Bool.or_eq_true, Bool.not_eq_true', not_or, Bool.not_eq_true, Bool.not_eq_false] at h
    split
    · rename_i hle
      simp [h, hle, eq_comm]
    · rename_i hle
      simp [h, hle]

/-! ## Signs -/

/-- A text splits into its sign and the rest. -/
theorem exists_isSign_splitSign (cs : List Char) :
    ∃ sign, IsSign sign (splitSign cs).1 ∧ cs = sign ++ (splitSign cs).2 := by
  unfold splitSign
  split
  · exact ⟨_, .minus, rfl⟩
  · exact ⟨_, .plus, rfl⟩
  · exact ⟨_, .none, rfl⟩

/-- A sign before digits is split off. -/
theorem splitSign_append (hsign : IsSign sign negative) (hc : isHexDigit c = true) :
    splitSign (sign ++ c :: cs) = (negative, c :: cs) := by
  cases hsign with
  | none =>
    unfold splitSign
    split
    · rename_i heq
      cases heq
      cases hc
    · rename_i heq
      cases heq
      cases hc
    · rfl
  | plus => rfl
  | minus => rfl

/-! ## Reading literals -/

/-- Hexadecimal digits are read as the number that they denote, with a sign if they have one. -/
theorem parseHex?_eq_some_iff :
    parseHex? cs = some n ↔ ∃ sign negative digits m, cs = sign ++ digits ∧ IsSign sign negative ∧
      Denotes 16 digits m ∧ (m ≤ maxMagnitude ∨ negative = true ∧ m = maxMagnitude + 1) ∧
      n = withSign negative m := by
  constructor
  · intro h
    obtain ⟨sign, hsign, hcs⟩ := exists_isSign_splitSign cs
    simp only [parseHex?] at h
    split at h
    · cases h
    · rename_i hdigits
      simp only [Bool.or_eq_true, Bool.not_eq_true', not_or, Bool.not_eq_true,
        Bool.not_eq_false] at hdigits
      refine ⟨sign, _, _, _, hcs, hsign, denotes_sixteen_iff.2 ⟨hdigits, rfl⟩, ?_⟩
      cases hnegative : (splitSign cs).1 with
      | true =>
        rw [hnegative, if_pos rfl] at h
        split at h
        · rename_i hle
          cases h
          exact ⟨(Nat.le_or_eq_of_le_succ hle).imp_right fun heq => ⟨rfl, heq⟩, rfl⟩
        · cases h
      | false =>
        rw [hnegative, if_neg (by decide)] at h
        split at h
        · rename_i hle
          cases h
          exact ⟨.inl hle, rfl⟩
        · cases h
  · rintro ⟨sign, negative, digits, m, rfl, hsign, hdigits, hle, rfl⟩
    obtain ⟨c, cs, d, rfl, hc⟩ := hdigits.exists_cons
    obtain ⟨⟨hne, hall⟩, rfl⟩ := denotes_sixteen_iff.1 hdigits
    rw [parseHex?, splitSign_append hsign ((isDigit_sixteen_iff c d).1 hc).1]
    simp only [hne, hall, Bool.not_true, Bool.or_self, Bool.false_eq_true, if_false]
    cases negative with
    | true =>
      have hle : hexToNat 0 (c :: cs) ≤ maxMagnitude + 1 := by
        rcases hle with hle | ⟨-, hle⟩ <;> omega
      rw [if_pos rfl, if_pos hle]
      rfl
    | false =>
      have hle : hexToNat 0 (c :: cs) ≤ maxMagnitude := by simpa using hle
      rw [if_neg (by decide), if_pos hle]
      rfl

/-- Behind its sign a literal is read as decimal digits, or as the mark and hexadecimal digits. -/
theorem parseUnsigned?_eq_some_iff :
    parseUnsigned? cs = some n ↔ parseDecimal? cs = some n ∨
      ∃ x cs', cs = '0' :: x :: cs' ∧ (x = 'x' ∨ x = 'X') ∧ parseHex? cs' = some n := by
  have hmark : ∀ x cs', x = 'x' ∨ x = 'X' → parseDecimal? ('0' :: x :: cs') = none := by
    rintro x cs' (rfl | rfl) <;> rfl
  fun_cases parseUnsigned? cs with
  | case1 cs => simp [hmark]
  | case2 cs => simp [hmark]
  | case3 cs hsmall hcapital =>
    constructor
    · exact .inl
    · rintro (h | ⟨x, cs', rfl, rfl | rfl, -⟩)
      · exact h
      · exact absurd rfl (hsmall cs')
      · exact absurd rfl (hcapital cs')

/-- A literal begins with a digit behind its sign. -/
theorem IsMagnitude.exists_cons (h : IsMagnitude cs m) :
    ∃ c cs', cs = c :: cs' ∧ c.isDigit = true := by
  cases h with
  | decimal h =>
    obtain ⟨c, cs', d, rfl, hc⟩ := h.exists_cons
    exact ⟨c, cs', rfl, ((isDigit_ten_iff c d).1 hc).1⟩
  | hexadecimal hx h => exact ⟨'0', _, rfl, by decide⟩

/-- A literal without sign is read as its number. -/
theorem IsMagnitude.parseUnsigned?_eq (h : IsMagnitude cs m) (hle : m ≤ maxMagnitude) :
    parseUnsigned? cs = some (m : Int) := by
  rw [parseUnsigned?_eq_some_iff]
  cases h with
  | decimal h => exact .inl (parseDecimal?_eq_some_iff.2 ⟨m, h, hle, rfl⟩)
  | hexadecimal hx h =>
    exact .inr ⟨_, _, rfl, hx,
      parseHex?_eq_some_iff.2 ⟨[], false, _, m, rfl, .none, h, .inl hle, rfl⟩⟩

/-- What is read behind a sign has 64 bits. -/
theorem range_of_parseUnsigned? (h : parseUnsigned? cs = some n) :
    -9223372036854775808 ≤ n ∧ n ≤ 9223372036854775807 := by
  have hmax := maxMagnitude_eq
  rcases parseUnsigned?_eq_some_iff.1 h with hdecimal | ⟨x, cs', -, -, hhex⟩
  · obtain ⟨m, -, hle, rfl⟩ := parseDecimal?_eq_some_iff.1 hdecimal
    omega
  · obtain ⟨sign, negative, digits, m, -, -, -, hle, rfl⟩ := parseHex?_eq_some_iff.1 hhex
    cases negative with
    | true =>
      have hvalue : withSign true m = -m := rfl
      omega
    | false =>
      have hvalue : withSign false m = m := rfl
      have hle : m ≤ maxMagnitude := by simpa using hle
      omega

/-- The sign is put before the number that is read behind it, and the negation may wrap. -/
theorem parse?_eq_wrapped (cs : List Char) :
    parse? cs = (parseUnsigned? (splitSign cs).2).map (withSignWrapped (splitSign cs).1) := rfl

/-- The sign is put before the number that is read behind it, unless the negation overflows. -/
theorem parse?_eq (hrange : ¬ NegationOverflows cs) :
    parse? cs = (parseUnsigned? (splitSign cs).2).map (withSign (splitSign cs).1) := by
  rw [parse?_eq_wrapped]
  refine Option.map_congr fun n hn => ?_
  obtain ⟨hlo, hhi⟩ := range_of_parseUnsigned? hn
  cases hnegative : (splitSign cs).1 with
  | false => rfl
  | true =>
    -- Only the negation of the least number would wrap.
    have hne : n ≠ -(maxMagnitude + 1 : Int) := by
      rintro rfl
      exact hrange ⟨hnegative, hn⟩
    have hmax := maxMagnitude_eq
    exact bmod_of_range (by omega) (by omega)

/-- A minus sign before the least number leaves it as it is. -/
example : parse? "-0x-8000000000000000".toList = some (-9223372036854775808) := by decide +kernel

/-- The sign before a digit is put before the number that is read from this digit on. -/
theorem parse?_append (hrange : ¬ NegationOverflows (sign ++ c :: cs))
    (hsign : IsSign sign negative) (hc : c.isDigit = true)
    (h : parseUnsigned? (c :: cs) = some n) :
    parse? (sign ++ c :: cs) = some (withSign negative n) := by
  rw [parse?_eq hrange, splitSign_append hsign (isHexDigit_of_isDigit hc), h, Option.map_some]

/-- A word is an integer if it is a literal, or if it has a second sign behind its mark. -/
theorem parse?_eq_some_iff (hrange : ¬ NegationOverflows cs) :
    parse? cs = some n ↔ IsLiteral cs n ∨ IsTwiceSigned cs n := by
  constructor
  · intro h
    obtain ⟨sign, hsign, hcs⟩ := exists_isSign_splitSign cs
    obtain ⟨k, hk, rfl⟩ := Option.map_eq_some_iff.1 (parse?_eq hrange ▸ h)
    rcases parseUnsigned?_eq_some_iff.1 hk with hdecimal | ⟨x, cs', hrest, hx, hhex⟩
    · obtain ⟨m, hm, hle, rfl⟩ := parseDecimal?_eq_some_iff.1 hdecimal
      have hliteral := IsLiteral.intro hsign (.decimal hm) hle
      rw [← hcs] at hliteral
      exact .inl hliteral
    · rw [hrest] at hcs
      obtain ⟨sign', negative', digits, m, rfl, hsign', hm, hle, rfl⟩ :=
        parseHex?_eq_some_iff.1 hhex
      subst hcs
      by_cases hne : sign' = []
      · -- Without a second sign there is nothing negative behind the mark.
        subst hne
        cases hsign'
        exact .inl (.intro hsign (.hexadecimal hx hm) (by simpa using hle))
      · exact .inr (.intro hsign hx hsign' hne hm hle)
  · rintro (⟨hsign, hm, hle⟩ | ⟨hsign, hx, hsign', hne, hm, hle⟩)
    · obtain ⟨c, cs', rfl, hc⟩ := hm.exists_cons
      exact parse?_append hrange hsign hc (hm.parseUnsigned?_eq hle)
    · refine parse?_append hrange hsign (by decide) ?_
      exact parseUnsigned?_eq_some_iff.2
        (.inr ⟨_, _, rfl, hx, parseHex?_eq_some_iff.2 ⟨_, _, _, _, rfl, hsign', hm, hle, rfl⟩⟩)

/-! ## Which words are integers -/

/-- Digits behind a mark do not have a sign. -/
theorem IsMagnitude.not_isSign (hx : x = 'x' ∨ x = 'X')
    (h : IsMagnitude ('0' :: x :: (sign ++ digits)) m) (hsign : IsSign sign negative) :
    sign = [] := by
  cases h with
  | decimal h =>
    -- The mark is no decimal digit.
    have hdigits := (denotes_ten_iff.1 h).1.2
    rcases hx with rfl | rfl <;> cases hdigits
  | hexadecimal _ h =>
    have hdigits := (denotes_sixteen_iff.1 h).1.2
    cases hsign with
    | none => rfl
    | plus | minus => cases hdigits

/-- What is behind the sign of a literal is a literal without sign. -/
theorem IsLiteral.exists_isMagnitude (h : IsLiteral cs n) :
    ∃ m, IsMagnitude (splitSign cs).2 m := by
  obtain ⟨hsign, hm, -⟩ := h
  obtain ⟨c, cs', rfl, hc⟩ := hm.exists_cons
  rw [splitSign_append hsign (isHexDigit_of_isDigit hc)]
  exact ⟨_, hm⟩

/-- A literal has no second sign behind its mark. -/
theorem IsLiteral.not_isTwiceSigned (h : IsLiteral cs n) : ¬ IsTwiceSigned cs k := by
  rintro ⟨hsign, hx, hsign', hne, -, -⟩
  obtain ⟨m, hm⟩ := h.exists_isMagnitude
  rw [splitSign_append hsign (by decide)] at hm
  exact hne (hm.not_isSign hx hsign')

/-- What is read as an integer looks like a number. -/
theorem looksNumeric_of_parse? (h : parse? cs = some n) : looksNumeric cs = true := by
  have hdigit : ∃ c cs', (splitSign cs).2 = c :: cs' ∧ c.isDigit = true := by
    obtain ⟨k, hk, -⟩ := Option.map_eq_some_iff.1 (parse?_eq_wrapped cs ▸ h)
    rcases parseUnsigned?_eq_some_iff.1 hk with hdecimal | ⟨x, cs', hrest, -, -⟩
    · obtain ⟨m, hm, -, -⟩ := parseDecimal?_eq_some_iff.1 hdecimal
      exact (IsMagnitude.decimal hm).exists_cons
    · exact ⟨'0', _, hrest, by decide⟩
  obtain ⟨c, cs', hrest, hc⟩ := hdigit
  rw [looksNumeric, hrest]
  simp [hc]

/-- The words that are integer tokens are those that are read as integers. -/
theorem ofWord_eq_int_iff : Token.ofWord cs = .ok (.int n) ↔ parse? cs = some n := by
  constructor
  · intro h
    rw [Token.ofWord] at h
    split at h
    · cases h
    · split at h
      · rename_i hparse
        cases h
        exact hparse
      · split at h <;> cases h
  · intro h
    rw [Token.ofWord, looksNumeric_of_parse? h, h]
    rfl

/-- What is read as an integer has 64 bits. -/
theorem range_of_parse? (h : parse? cs = some n) :
    -9223372036854775808 ≤ n ∧ n ≤ 9223372036854775807 := by
  obtain ⟨k, hk, rfl⟩ := Option.map_eq_some_iff.1 (parse?_eq_wrapped cs ▸ h)
  cases (splitSign cs).1 with
  | false => exact range_of_parseUnsigned? hk
  | true =>
    have hvalue : withSignWrapped true k = (-k).bmod 18446744073709551616 := rfl
    have hlo := @Int.le_bmod (-k) 18446744073709551616 (by decide)
    have hhi := @Int.bmod_lt (-k) 18446744073709551616 (by decide)
    omega

/-- Which words are integers, as long as no negation overflows. The words that are integer tokens
are those that are read as a number of 64 bits, and these are

* the integer literals, each with the number that it denotes, and
* the hexadecimal literals with a second sign behind their mark, which are no integer literals. -/
theorem literals_exact (cs : List Char) (hrange : ¬ NegationOverflows cs) :
    (∀ n, Token.ofWord cs = .ok (.int n) ↔ parse? cs = some n) ∧
    (∀ n, parse? cs = some n ↔ IsLiteral cs n ∨ IsTwiceSigned cs n) ∧
    (∀ n k, IsLiteral cs n → ¬ IsTwiceSigned cs k) ∧
    (∀ n, parse? cs = some n → -9223372036854775808 ≤ n ∧ n ≤ 9223372036854775807) :=
  ⟨fun _ => ofWord_eq_int_iff, fun _ => parse?_eq_some_iff hrange,
    fun _ _ => IsLiteral.not_isTwiceSigned, fun _ => range_of_parse?⟩

/-- A hexadecimal literal with capital letters behind a minus sign. -/
theorem literals_exact_capital :
    let cs : List Char := "-0X1F".toList
    ¬ NegationOverflows cs ∧ IsLiteral cs (-31) ∧ parse? cs = some (-31) ∧
      Token.ofWord cs = .ok (.int (-31)) := by
  intro cs
  have hrange : ¬ NegationOverflows cs := by decide +kernel
  have hdigits : Denotes 16 ['1', 'F'] 31 :=
    ⟨by decide, [1, 15], .cons (by decide) (.cons (by decide) .nil), by decide⟩
  have hcs : cs = ['-'] ++ '0' :: 'X' :: ['1', 'F'] := by decide +kernel
  have hliteral : IsLiteral cs (-31) := by
    rw [hcs]
    exact .intro .minus (.hexadecimal (.inr rfl) hdigits) (by decide)
  obtain ⟨htoken, hparse, -, -⟩ := literals_exact cs hrange
  have hread : parse? cs = some (-31) := (hparse _).2 (.inl hliteral)
  exact ⟨hrange, hliteral, hread, (htoken _).2 hread⟩

/-- Behind the mark of a hexadecimal literal a second sign is accepted: the word is read as an
integer, and no negation overflows, though it is no integer literal. -/
theorem exists_integer_not_literal :
    let cs : List Char := "0x-5".toList
    ¬ NegationOverflows cs ∧ parse? cs = some (-5) ∧ Token.ofWord cs = .ok (.int (-5)) ∧
      ∀ n, ¬ IsLiteral cs n := by
  intro cs
  have hdigits : Denotes 16 ['5'] 5 := ⟨by decide, [5], .cons (by decide) .nil, by decide⟩
  have hcs : cs = [] ++ '0' :: 'x' :: (['-'] ++ ['5']) := by decide +kernel
  have htwice : IsTwiceSigned cs (-5) := by
    rw [hcs]
    exact .intro .none (.inl rfl) .minus (by decide) hdigits (.inl (by decide))
  have hrange : ¬ NegationOverflows cs := by decide +kernel
  have hread : parse? cs = some (-5) := (parse?_eq_some_iff hrange).2 (.inr htwice)
  exact ⟨hrange, hread, ofWord_eq_int_iff.2 hread,
    fun n hliteral => hliteral.not_isTwiceSigned htwice⟩

end Integer

end RegisterMachine
