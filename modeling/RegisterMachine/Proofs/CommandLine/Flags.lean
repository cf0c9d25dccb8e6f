import RegisterMachine.CommandLine
import RegisterMachine.Proofs.Double.Decimal
import RegisterMachine.Proofs.Results

/-! # Flags

The flags behind a file name set the options of a run, each of them with the argument behind it as
its value. Which flags there are, and which values they take, is said here as a relation between
arguments and options.

* `IsFlagNumber` — the texts that stand for a number.
* `RunOptions.Sets` — flags that turn options into others.
* `RunOptions.withFlags_eq_ok_iff` — reading flags succeeds exactly for these.
-/

namespace RegisterMachine

variable {o o' : RunOptions} {flag value : String} {flags : List String} {n : Nat}

/-! ## Numbers -/

/-- A text stands for a number as the value of a flag: decimal digits, which an optional plus sign
precedes, for a number that is not too great. -/
def IsFlagNumber (value : String) (n : Nat) : Prop :=
  ∃ digits : List Char, (value.toList = digits ∨ value.toList = '+' :: digits) ∧ digits ≠ [] ∧
    (∀ c ∈ digits, c.isDigit = true) ∧ Nat.ofDigitChars 10 digits 0 = n ∧ n ≤ maxFlagValue

/-- Digits are read as a number if there are some and the number is not too great. -/
theorem flagDigits_eq_some_iff {digits : List Char} :
    (if digits.isEmpty || !digits.all Char.isDigit then none
      else if digitsToNat 0 digits ≤ maxFlagValue then some (digitsToNat 0 digits) else none) =
        some n ↔
      digits ≠ [] ∧ (∀ c ∈ digits, c.isDigit = true) ∧ Nat.ofDigitChars 10 digits 0 = n ∧
        n ≤ maxFlagValue := by
  rw [digitsToNat_eq_ofDigitChars]
  by_cases hdigits : digits = [] ∨ ¬ ∀ c ∈ digits, c.isDigit = true
  · have hbad : (digits.isEmpty || !digits.all Char.isDigit) = true := by simpa using hdigits
    rw [if_pos hbad]
    grind
  · have hgood : ¬ (digits.isEmpty || !digits.all Char.isDigit) = true := by simpa using hdigits
    rw [if_neg hgood]
    grind

/-- Exactly these texts are read as numbers. -/
theorem parseFlagValue?_eq_some_iff : parseFlagValue? value = some n ↔ IsFlagNumber value n := by
  unfold parseFlagValue? IsFlagNumber
  generalize value.toList = cs
  split
  · rename_i digits
    rw [flagDigits_eq_some_iff]
    constructor
    · intro h
      exact ⟨digits, .inr rfl, h⟩
    · -- A plus sign is no digit, so it precedes the digits.
      rintro ⟨digits', rfl | hcons, h⟩
      · exact absurd (h.2.1 '+' (by simp)) (by decide)
      · cases hcons
        exact h
  · rename_i digits hsign
    rw [flagDigits_eq_some_iff]
    constructor
    · intro h
      exact ⟨cs, .inl rfl, h⟩
    · rintro ⟨digits', rfl | hcons, h⟩
      · exact h
      · exact absurd hcons (hsign digits')

/-- The value of a flag is the number that its text stands for. -/
theorem flagValue_eq_ok_iff : flagValue flag (some value) = .ok n ↔ IsFlagNumber value n := by
  rw [flagValue, ← parseFlagValue?_eq_some_iff]
  cases parseFlagValue? value <;> simp

/-! ## Options -/

namespace RunOptions

/-- Flags, each with its value, that turn options into others when they are taken one after the
other. -/
inductive Sets : RunOptions → List String → RunOptions → Prop where
  /-- No flags. -/
  | nil {o : RunOptions} : Sets o [] o
  /-- The greatest number of steps. -/
  | fuel {o o' : RunOptions} {value : String} {n : Nat} {flags : List String}
      (number : IsFlagNumber value n) (rest : Sets { o with fuel := n } flags o') :
      Sets o ("--fuel" :: value :: flags) o'
  /-- How many of the integer parameter registers are used. -/
  | intRegs {o o' : RunOptions} {value : String} {n : Nat} {flags : List String}
      (number : IsFlagNumber value n) (le : n ≤ Convention.standard.intParams.length)
      (rest : Sets { o with convention := .withIntParams n } flags o') :
      Sets o ("--int-regs" :: value :: flags) o'

/-- No flag goes without a value. -/
theorem withFlag_none_ne_ok : o.withFlag flag none ≠ .ok o' := by
  unfold withFlag
  split <;> exact nofun

/-- A flag with a value changes options if there is such a flag and it takes the value. -/
theorem withFlag_eq_ok_iff :
    o.withFlag flag (some value) = .ok o' ↔
      ∃ n, IsFlagNumber value n ∧
        (flag = "--fuel" ∧ o' = { o with fuel := n } ∨
          flag = "--int-regs" ∧ n ≤ Convention.standard.intParams.length ∧
            o' = { o with convention := .withIntParams n }) := by
  unfold withFlag
  split
  · rw [map_eq_ok_iff]
    simp only [flagValue_eq_ok_iff]
    simp [eq_comm]
  · rw [bind_eq_ok_iff]
    simp only [flagValue_eq_ok_iff]
    refine exists_congr fun n => and_congr_right fun _ => ?_
    by_cases hle : n ≤ Convention.standard.intParams.length
    · simp [hle, pure, Except.pure, eq_comm]
    · simp [hle, throw, throwThe, MonadExceptOf.throw]
  · rename_i hfuel hregs
    constructor
    · exact nofun
    · rintro ⟨n, -, ⟨hflag, -⟩ | ⟨hflag, -, -⟩⟩
      · exact absurd hflag hfuel
      · exact absurd hflag hregs

/-- Flags are read exactly if they turn the options into others. -/
theorem withFlags_eq_ok_iff : ∀ {flags : List String} {o : RunOptions},
    o.withFlags flags = .ok o' ↔ o.Sets flags o'
  | [], o => by
    rw [withFlags, Except.ok.injEq]
    constructor
    · rintro rfl
      exact .nil
    · rintro ⟨⟩
      rfl
  | [flag], o => by
    rw [withFlags]
    exact ⟨fun h => absurd h withFlag_none_ne_ok, nofun⟩
  | flag :: value :: flags, o => by
    rw [withFlags, bind_eq_ok_iff]
    simp only [withFlag_eq_ok_iff]
    constructor
    · rintro ⟨o₁, ⟨n, hnumber, ⟨rfl, rfl⟩ | ⟨rfl, hle, rfl⟩⟩, hrest⟩
      · exact .fuel hnumber (withFlags_eq_ok_iff.1 hrest)
      · exact .intRegs hnumber hle (withFlags_eq_ok_iff.1 hrest)
    · intro h
      cases h with
      | fuel number rest =>
        exact ⟨_, ⟨_, number, .inl ⟨rfl, rfl⟩⟩, withFlags_eq_ok_iff.2 rest⟩
      | intRegs number le rest =>
        exact ⟨_, ⟨_, number, .inr ⟨rfl, le, rfl⟩⟩, withFlags_eq_ok_iff.2 rest⟩

end RunOptions

end RegisterMachine
