/-! # Machine words and bytes

Registers, offsets, immediates and labels are 32-bit words. A word has no sign of its own: a signed
reading is `BitVec.toInt`, an unsigned one `BitVec.toNat`, and arithmetic wraps.

* `Word`, `Byte` — bit vectors of width 32 and 8.
* `Word.ofInt?`, `Word.ofUnsigned?` — the word that reads as a given integer, if it fits.
* `Bytes.ofNat`, `Bytes.toNat` — little-endian digits of a natural number in base 256.
-/

namespace RegisterMachine

/-- A 32-bit word. -/
abbrev Word := BitVec 32

/-- An 8-bit byte. -/
abbrev Byte := BitVec 8

namespace Word

/-- The word whose signed reading is `n`, if `n` lies between -2147483648 and 2147483647. -/
def ofInt? (n : Int) : Option Word :=
  if -2147483648 ≤ n ∧ n ≤ 2147483647 then some (BitVec.ofInt 32 n) else none

/-- The word whose unsigned reading is `n`, if `n` lies between 0 and 4294967295. -/
def ofUnsigned? (n : Int) : Option Word :=
  if 0 ≤ n ∧ n ≤ 4294967295 then some (BitVec.ofInt 32 n) else none

theorem toInt_of_ofInt? {n : Int} {w : Word} (h : ofInt? n = some w) : w.toInt = n := by
  unfold ofInt? at h
  split at h
  · cases h
    rw [BitVec.toInt_ofInt]
    simp [Int.bmod]
    omega
  · cases h

theorem ofInt?_toInt (w : Word) : ofInt? w.toInt = some w := by
  have h₁ := w.le_toInt
  have h₂ := w.toInt_lt
  simp at h₁ h₂
  simp only [ofInt?, BitVec.ofInt_toInt]
  rw [if_pos (by omega)]

theorem toNat_of_ofUnsigned? {n : Int} {w : Word} (h : ofUnsigned? n = some w) :
    (w.toNat : Int) = n := by
  unfold ofUnsigned? at h
  split at h
  · cases h
    simp only [BitVec.toNat_ofInt]
    omega
  · cases h

theorem ofUnsigned?_toNat (w : Word) : ofUnsigned? (w.toNat : Int) = some w := by
  have h := w.isLt
  simp only [ofUnsigned?, BitVec.ofInt_natCast, BitVec.ofNat_toNat, BitVec.setWidth_eq]
  rw [if_pos (by omega)]

end Word

namespace Bytes

/-- The `count` low base-256 digits of `n`, lowest first. -/
def ofNat : (count : Nat) → (n : Nat) → List Byte
  | 0, _ => []
  | count + 1, n => BitVec.ofNat 8 n :: ofNat count (n / 256)

/-- The number whose base-256 digits, lowest first, are the given bytes. -/
def toNat : List Byte → Nat
  | [] => 0
  | b :: bs => b.toNat + 256 * toNat bs

@[simp] theorem length_ofNat (count n : Nat) : (ofNat count n).length = count := by
  induction count generalizing n with
  | zero => rfl
  | succ count ih => simp [ofNat, ih]

@[simp] theorem ofNat_toNat (bs : List Byte) : ofNat bs.length (toNat bs) = bs := by
  induction bs with
  | nil => rfl
  | cons b bs ih =>
    have hb := b.isLt
    have h₁ : (b.toNat + 256 * toNat bs) / 256 = toNat bs := by omega
    have h₂ : BitVec.ofNat 8 (b.toNat + 256 * toNat bs) = b := by
      apply BitVec.eq_of_toNat_eq
      simp only [BitVec.toNat_ofNat]
      omega
    simp [ofNat, toNat, h₁, h₂, ih]

end Bytes

end RegisterMachine
