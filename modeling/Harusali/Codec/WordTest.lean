import Harusali.Codec.Order
import Mathlib.Data.Nat.Bitwise
import Mathlib.Data.Nat.Digits.Defs
import Mathlib.Tactic.Ring

set_option autoImplicit false

/-! # Testing the bytes of a word at once

Whether one of the bytes of a word `v` is 0 or 255 can be told without looking at them one by one:
the top bit of a byte is set in `v - 0x01…01` and clear in `v + 0x01…01` only for these two. What
is carried or borrowed between bytes does no harm, since it comes from such a byte only
(`topBits_iff`). The number of bytes is arbitrary. -/

namespace Codec

/-- The number the bytes stand for, least significant byte first. -/
def ofBytesLE (bytes : List UInt8) : Nat :=
  Nat.ofDigits 256 (bytes.map UInt8.toNat)

theorem ofBytesLE_cons (b : UInt8) (bytes : List UInt8) :
    ofBytesLE (b :: bytes) = b.toNat + 256 * ofBytesLE bytes := by
  simp [ofBytesLE, Nat.ofDigits_cons]

theorem ofBytesLE_lt (bytes : List UInt8) : ofBytesLE bytes < 256 ^ bytes.length := by
  induction bytes with
  | nil => simp [ofBytesLE]
  | cons b bytes ih =>
      have hb : b.toNat < 256 := b.toNat_lt
      rw [ofBytesLE_cons, List.length_cons, Nat.pow_succ]
      omega

/-- The word of `n` bytes that are all `digit`. -/
def repeated (digit : Nat) : Nat → Nat
  | 0 => 0
  | n + 1 => digit + 256 * repeated digit n

theorem repeated_one_lt (n : Nat) : repeated 1 n < 256 ^ n := by
  induction n with
  | zero => simp [repeated]
  | succ n ih =>
      rw [repeated, Nat.pow_succ]
      omega

/-- Whether some byte of the word of `n` bytes has its top bit set in `a` and clear in `b`. -/
def topBits : Nat → Nat → Nat → Bool
  | 0, _, _ => false
  | n + 1, a, b => decide (128 ≤ a % 256 ∧ b % 256 < 128) || topBits n (a / 256) (b / 256)

/-- The two bytes that are looked for. -/
def IsExtreme (b : UInt8) : Prop := b = 0 ∨ b = 255

instance (b : UInt8) : Decidable (IsExtreme b) := inferInstanceAs (Decidable (b = 0 ∨ b = 255))

theorem isExtreme_iff {b : UInt8} : IsExtreme b ↔ b.toNat = 0 ∨ b.toNat = 255 := by
  simp only [IsExtreme, ← UInt8.toNat_inj]
  rfl

/-- **Only extreme bytes pass the test**, and each of them makes the word pass it. -/
theorem topBits_iff (bytes : List UInt8) :
    topBits bytes.length
        ((256 ^ bytes.length - repeated 1 bytes.length + ofBytesLE bytes) % 256 ^ bytes.length)
        ((ofBytesLE bytes + repeated 1 bytes.length) % 256 ^ bytes.length) = true
      ↔ ∃ b ∈ bytes, IsExtreme b := by
  induction bytes with
  | nil => simp [topBits]
  | cons b bytes ih =>
      have hb : b.toNat < 256 := b.toNat_lt
      have hones := repeated_one_lt bytes.length
      generalize hv : ofBytesLE bytes = v at ih
      generalize hw : repeated 1 bytes.length = w at ih hones
      generalize hm : 256 ^ bytes.length = m at ih hones
      have hminus : (256 ^ (b :: bytes).length - repeated 1 (b :: bytes).length
          + ofBytesLE (b :: bytes)) % 256 ^ (b :: bytes).length
          = (b.toNat + 255) % 256 + 256 * ((m - w - 1 + v + (b.toNat + 255) / 256) % m) := by
        rw [List.length_cons, ofBytesLE_cons, hv, repeated, hw, Nat.pow_succ, hm, Nat.mul_comm m,
          Nat.mod_mul]
        congr 1
        · omega
        · congr 2
          omega
      have hplus : (ofBytesLE (b :: bytes) + repeated 1 (b :: bytes).length)
          % 256 ^ (b :: bytes).length
          = (b.toNat + 1) % 256 + 256 * ((v + w + (b.toNat + 1) / 256) % m) := by
        rw [List.length_cons, ofBytesLE_cons, hv, repeated, hw, Nat.pow_succ, hm, Nat.mul_comm m,
          Nat.mod_mul]
        congr 1
        · omega
        · congr 2
          omega
      rw [hminus, hplus, List.length_cons, topBits]
      by_cases hextreme : IsExtreme b
      · have hlow : decide (128 ≤ ((b.toNat + 255) % 256
            + 256 * ((m - w - 1 + v + (b.toNat + 255) / 256) % m)) % 256 ∧
            ((b.toNat + 1) % 256 + 256 * ((v + w + (b.toNat + 1) / 256) % m)) % 256 < 128)
              = true := by
          rw [decide_eq_true_eq]
          rcases isExtreme_iff.1 hextreme with h | h <;> rw [h] <;> omega
        rw [hlow, Bool.true_or]
        simp [hextreme]
      -- any other byte neither passes the test nor carries
      · have hmid : 0 < b.toNat ∧ b.toNat < 255 := by
          rw [isExtreme_iff] at hextreme
          omega
        have hlow : decide (128 ≤ ((b.toNat + 255) % 256
            + 256 * ((m - w - 1 + v + (b.toNat + 255) / 256) % m)) % 256 ∧
            ((b.toNat + 1) % 256 + 256 * ((v + w + (b.toNat + 1) / 256) % m)) % 256 < 128)
              = false := by
          rw [decide_eq_false_iff_not]
          omega
        have hborrow : m - w - 1 + v + (b.toNat + 255) / 256 = m - w + v := by omega
        have hcarry : v + w + (b.toNat + 1) / 256 = v + w := by omega
        have hhigh : ∀ x y : Nat, ((x % 256) + 256 * y) / 256 = y := by omega
        rw [hlow, Bool.false_or, hhigh, hhigh, hborrow, hcarry, ih]
        simp [hextreme]

/-! ## As machine words -/

theorem and_top (x y : Nat) (hx : x < 256) (hy : y < 256) :
    x &&& (255 - y) &&& 128 = 0 ↔ ¬ (128 ≤ x ∧ y < 128) := by
  have hbit : ∀ z : Fin 256, z.val &&& 128 = if 128 ≤ z.val then 128 else 0 := by decide +kernel
  have hsplit : x &&& (255 - y) &&& 128 = (x &&& 128) &&& ((255 - y) &&& 128) := by
    apply Nat.eq_of_testBit_eq
    intro i
    simp only [Nat.testBit_and]
    cases x.testBit i <;> cases (255 - y).testBit i <;> simp
  have hx' := hbit ⟨x, hx⟩
  have hy' := hbit ⟨255 - y, by omega⟩
  simp only at hx' hy'
  rw [hsplit, hx', hy']
  split_ifs <;> simp <;> omega

/-- `(a & ~b) & 0x80…80` of words of `n` bytes. -/
theorem and_eq_zero_iff {n a b : Nat} (ha : a < 256 ^ n) (hb : b < 256 ^ n) :
    a &&& (256 ^ n - 1 - b) &&& repeated 128 n = 0 ↔ topBits n a b = false := by
  induction n generalizing a b with
  | zero => simp [repeated, topBits]
  | succ n ih =>
      rw [Nat.pow_succ] at ha hb
      have ha' : a / 256 < 256 ^ n := by omega
      have hb' : b / 256 < 256 ^ n := by omega
      have hzero : ∀ x : Nat, x = 0 ↔ x % 2 ^ 8 = 0 ∧ x / 2 ^ 8 = 0 := by omega
      have hlow : (256 ^ (n + 1) - 1 - b) % 2 ^ 8 = 255 - b % 256 := by
        rw [Nat.pow_succ]
        omega
      have hhigh : (256 ^ (n + 1) - 1 - b) / 2 ^ 8 = 256 ^ n - 1 - b / 256 := by
        rw [Nat.pow_succ]
        omega
      have hmask : repeated 128 (n + 1) % 2 ^ 8 = 128 := by
        rw [repeated]
        omega
      have hmask' : repeated 128 (n + 1) / 2 ^ 8 = repeated 128 n := by
        rw [repeated]
        omega
      have hbyte : a % 2 ^ 8 &&& (255 - b % 256) &&& 128 = 0 ↔
          ¬ (128 ≤ a % 256 ∧ b % 256 < 128) :=
        and_top (a % 256) (b % 256) (by omega) (by omega)
      have hdiv : a / 2 ^ 8 = a / 256 := rfl
      rw [hzero, Nat.and_mod_two_pow, Nat.and_mod_two_pow, Nat.and_div_two_pow,
        Nat.and_div_two_pow, hlow, hhigh, hmask, hmask', hbyte, hdiv, ih ha' hb', topBits,
        Bool.or_eq_false_iff, decide_eq_false_iff_not]

end Codec
