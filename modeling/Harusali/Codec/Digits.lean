import Harusali.Codec.Order
import Mathlib.Data.Nat.Digits.Defs
import Mathlib.Data.Nat.Digits.Lemmas

set_option autoImplicit false

/-! # Numbers in network byte order

The number a string of bytes stands for, most significant byte first, and the string of a given
length that stands for a number. Reading two strings of bytes as binary fractions, the first is
`Below` the second if its interval lies under the second (`below_of_ofBytes`), so codes that are
laid out bit by bit are ordered by arithmetic. -/

namespace Codec

/-- The number the bytes stand for, most significant byte first. -/
def ofBytes (bytes : List UInt8) : Nat :=
  Nat.ofDigits 256 (bytes.reverse.map UInt8.toNat)

@[simp] theorem ofBytes_nil : ofBytes [] = 0 := rfl

theorem ofBytes_append (x y : List UInt8) :
    ofBytes (x ++ y) = ofBytes x * 256 ^ y.length + ofBytes y := by
  simp only [ofBytes, List.reverse_append, List.map_append, Nat.ofDigits_append, List.length_map,
    List.length_reverse]
  ring

theorem ofBytes_singleton (b : UInt8) : ofBytes [b] = b.toNat := by
  simp [ofBytes]

theorem ofBytes_cons (b : UInt8) (x : List UInt8) :
    ofBytes (b :: x) = b.toNat * 256 ^ x.length + ofBytes x := by
  rw [← List.singleton_append, ofBytes_append, ofBytes_singleton]

theorem ofBytes_lt (x : List UInt8) : ofBytes x < 256 ^ x.length := by
  have hlt := Nat.ofDigits_lt_base_pow_length' (b := 254) (l := x.reverse.map UInt8.toNat) (by
    intro d hd
    obtain ⟨b, -, rfl⟩ := List.mem_map.1 hd
    exact b.toNat_lt)
  simpa [ofBytes] using hlt

/-- Strings of one length that stand for one number are equal. -/
theorem ofBytes_injective {x y : List UInt8} (hlength : x.length = y.length)
    (h : ofBytes x = ofBytes y) : x = y := by
  induction x generalizing y with
  | nil => exact (List.length_eq_zero_iff.1 hlength.symm).symm
  | cons b x ih =>
      cases y with
      | nil => exact absurd hlength (by simp)
      | cons c y =>
          have hlength' : x.length = y.length := Nat.succ.inj hlength
          rw [ofBytes_cons, ofBytes_cons, hlength'] at h
          have hx := ofBytes_lt x
          have hy := ofBytes_lt y
          rw [hlength'] at hx
          have hhead : b.toNat = c.toNat := by
            have hdiv := congrArg (· / 256 ^ y.length) h
            rwa [Nat.mul_comm b.toNat, Nat.mul_comm c.toNat, Nat.mul_add_div (by positivity),
              Nat.mul_add_div (by positivity), Nat.div_eq_of_lt hx, Nat.div_eq_of_lt hy] at hdiv
          rw [hhead] at h
          rw [UInt8.toNat_inj.1 hhead, ih hlength' (Nat.add_left_cancel h)]

/-- The last `length` bytes of `n` in network byte order. -/
def toBytes : Nat → Nat → List UInt8
  | 0, _ => []
  | length + 1, n => toBytes length (n / 256) ++ [UInt8.ofNat n]

@[simp] theorem length_toBytes (length n : Nat) : (toBytes length n).length = length := by
  induction length generalizing n with
  | zero => rfl
  | succ length ih => simp [toBytes, ih]

theorem ofBytes_toBytes (length n : Nat) : ofBytes (toBytes length n) = n % 256 ^ length := by
  induction length generalizing n with
  | zero => simp [toBytes, Nat.mod_one]
  | succ length ih =>
      have hsplit : n % 256 ^ (length + 1) = n % 256 + 256 * (n / 256 % 256 ^ length) := by
        rw [Nat.pow_succ', Nat.mod_mul]
      have hlast : (UInt8.ofNat n).toNat = n % 256 := UInt8.toNat_ofNat'
      rw [toBytes, ofBytes_append, ih, ofBytes_singleton, List.length_singleton, pow_one, hlast,
        hsplit]
      omega

/-- The last bytes of a string stand for its number modulo a power. -/
theorem ofBytes_drop (x : List UInt8) (n : Nat) (hn : n ≤ x.length) :
    ofBytes (x.drop (x.length - n)) = ofBytes x % 256 ^ n := by
  have hsplit := ofBytes_append (x.take (x.length - n)) (x.drop (x.length - n))
  have hlength : (x.drop (x.length - n)).length = n := by simp; omega
  rw [List.take_append_drop, hlength] at hsplit
  have hlt := ofBytes_lt (x.drop (x.length - n))
  rw [hlength] at hlt
  rw [hsplit, Nat.mul_comm, Nat.mul_add_mod, Nat.mod_eq_of_lt hlt]

/-- **Order by arithmetic.** As binary fractions, all that begins with `x` is under `y`. -/
theorem below_of_ofBytes {x y : List UInt8}
    (h : (ofBytes x + 1) * 256 ^ y.length ≤ ofBytes y * 256 ^ x.length) : Below x y := by
  induction x generalizing y with
  | nil =>
      have hy := ofBytes_lt y
      simp only [ofBytes_nil, List.length_nil, pow_zero, Nat.mul_one, Nat.zero_add,
        Nat.one_mul] at h
      omega
  | cons b x ih =>
      cases y with
      | nil => simp [ofBytes_nil] at h
      | cons c y =>
          have hx := ofBytes_lt x
          have hy := ofBytes_lt y
          rw [ofBytes_cons, ofBytes_cons, List.length_cons, List.length_cons, Nat.pow_succ,
            Nat.pow_succ] at h
          have hxpos : 0 < 256 ^ x.length := by positivity
          have hypos : 0 < 256 ^ y.length := by positivity
          rcases Nat.lt_trichotomy b.toNat c.toNat with hlt | heq | hgt
          · exact Or.inl (UInt8.lt_iff_toNat_lt.2 hlt)
          · refine Or.inr ⟨UInt8.toNat_inj.1 heq, ih ?_⟩
            rw [heq] at h
            nlinarith
          -- the first byte of `x` is larger, so all that begins with it lies above
          · exfalso
            have hle : c.toNat + 1 ≤ b.toNat := hgt
            have hupper : (c.toNat * 256 ^ y.length + ofBytes y) * (256 ^ x.length * 256)
                < (c.toNat + 1) * 256 ^ y.length * (256 ^ x.length * 256) := by
              refine Nat.mul_lt_mul_of_pos_right ?_ (by positivity)
              rw [Nat.add_mul, Nat.one_mul]
              omega
            have hlower : (c.toNat + 1) * 256 ^ x.length * (256 ^ y.length * 256)
                ≤ (b.toNat * 256 ^ x.length + ofBytes x + 1) * (256 ^ y.length * 256) := by
              refine Nat.mul_le_mul_right _ ?_
              have := Nat.mul_le_mul_right (256 ^ x.length) hle
              omega
            have hswap : (c.toNat + 1) * 256 ^ y.length * (256 ^ x.length * 256)
                = (c.toNat + 1) * 256 ^ x.length * (256 ^ y.length * 256) := by ring
            omega

end Codec
