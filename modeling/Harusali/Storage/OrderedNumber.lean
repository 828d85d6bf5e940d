import Harusali.Codec.Digits
import Harusali.Storage.OrderedCode
import Mathlib.Tactic.IntervalCases

set_option autoImplicit false

/-! # Signed numbers in keys

Batch ids and the labels of the components of a key are written with `WriteSignedNumIncreasing`:
one to ten bytes in network byte order, in which the sign bit and the bits after it that are equal
to it give the length. As a number of `length` bytes the code of `n` is `256 ^ length - 128 ^ length
+ n`, or `128 ^ length + n` if `n` is negative (`header`); the rest of this file follows from that.
-/

namespace Harusali.Firestore.OrderedCode

def kMaxSigned64Length : Nat := 10

/-- Maps an encoding length to the header bits in the first two bytes. -/
def kLengthToHeaderBits : List (UInt8 × UInt8) :=
  [(0, 0), (0x80, 0), (0xc0, 0), (0xe0, 0), (0xf0, 0), (0xf8, 0), (0xfc, 0), (0xfe, 0), (0xff, 0),
   (0xff, 0x80), (0xff, 0xc0)]

/-- Maps an encoding length to the header bits that overlap with the payload. -/
def kLengthToMask : List UInt64 :=
  [0, 0x80, 0xc000, 0xe00000, 0xf0000000, 0xf800000000, 0xfc0000000000, 0xfe000000000000,
   0xff00000000000000, 0x8000000000000000, 0]

/-- Maps the number of bits in a number to the length of its encoding. -/
def kBitsToLength : List Nat :=
  [1, 1, 1, 1, 1, 1, 1, 2, 2, 2, 2, 2, 2, 2, 3, 3, 3, 3, 3, 3, 3, 4,
   4, 4, 4, 4, 4, 4, 5, 5, 5, 5, 5, 5, 5, 6, 6, 6, 6, 6, 6, 6, 7, 7,
   7, 7, 7, 7, 7, 8, 8, 8, 8, 8, 8, 8, 9, 9, 9, 9, 9, 9, 9, 10]

/-- `Log2Floor64(n) + 1`, which is 0 for 0. -/
def bitLength (n : Nat) : Nat := if n = 0 then 0 else Nat.log2 n + 1

/-- `n < 0 ? ~n : n`. -/
def magnitude (n : Int) : Nat := (if n < 0 then -n - 1 else n).toNat

def signedEncodingLength (n : Int) : Nat := kBitsToLength.getD (bitLength (magnitude n)) 0

/-- `static_cast<uint64_t>`. -/
def toUInt64 (n : Int) : UInt64 := UInt64.ofNat (n % 2 ^ 64).toNat

/-- `static_cast<int64_t>`. -/
def toInt64 (x : UInt64) : Int := if x.toNat < 2 ^ 63 then x.toNat else x.toNat - 2 ^ 64

/-- The values of an `int64_t`. -/
def IsInt64 (n : Int) : Prop := -2 ^ 63 ≤ n ∧ n < 2 ^ 63

/-! ## Writing and reading -/

/-- The header bits are put over the first two bytes. -/
def xorHeader (len : Nat) : ByteString → ByteString
  | b₀ :: b₁ :: rest =>
      let header := kLengthToHeaderBits.getD len (0, 0)
      (b₀ ^^^ header.1) :: (b₁ ^^^ header.2) :: rest
  | begin => begin

/-- `WriteSignedNumIncreasing`, for an `int64_t`. -/
def writeSignedNumIncreasing (dest : ByteString) (val : Int) : Except String ByteString := do
  let x := magnitude val
  if x < 64 then
    pure (dest ++ [(kLengthToHeaderBits.getD 1 (0, 0)).1 ^^^ (toUInt64 val).toUInt8])
  else
    let signByte : UInt8 := if val < 0 then 0xff else 0x00
    let buf := signByte :: signByte :: Codec.toBytes 8 (toUInt64 val).toNat
    hardAssert (buf.length = kMaxSigned64Length) "max length size mismatch"
    let len := signedEncodingLength val
    hardAssert (2 ≤ len) "len >= 2"
    pure (dest ++ xorHeader len (buf.drop (buf.length - len)))

/-- The length the second and third byte give if the first is all header. -/
def longLength (secondByte thirdByte : UInt8) : Option Nat :=
  if 0x80 ≤ secondByte then
    if secondByte < 0xc0 then some 9
    else if secondByte = 0xc0 ∧ thirdByte < 0x80 then some 10
    else none
  else some 8

/-- The part of `ReadSignedNumIncreasing` that calculates and tests the length, and sets `x` to the
    raw result. -/
def lengthAndRaw (src : ByteString) : Option (Nat × UInt64) :=
  let xorMask : UInt64 := if byteAt src 0 &&& 0x80 = 0 then 0xffffffffffffffff else 0
  let firstByte := byteAt src 0 ^^^ xorMask.toUInt8
  if firstByte ≠ 0xff then
    let len := 7 - Nat.log2 (firstByte ^^^ 0xff).toNat
    if src.length < len then none
    else some (len, (src.take len).foldl (fun x c => (x <<< 8) ||| c.toUInt64) xorMask)
  else if src.length < 8 then none
  else
    let secondByte := byteAt src 1 ^^^ xorMask.toUInt8
    let thirdByte := byteAt src 2 ^^^ xorMask.toUInt8
    match longLength secondByte thirdByte with
    | none => none
    | some len =>
        if src.length < len then none
        else some (len, UInt64.ofNat (Codec.ofBytes ((src.drop (len - 8)).take 8)))

/-- `ReadSignedNumIncreasing`: the number at the front of `src` and what follows it. -/
def readSignedNumIncreasing (src : ByteString) : Except String (Option (Int × ByteString)) :=
  if src = [] then pure none
  else
    match lengthAndRaw src with
    | none => pure none
    | some (len, x) => do
        let x := x ^^^ kLengthToMask.getD len 0
        hardAssert (len = signedEncodingLength (toInt64 x))
          "len == static_cast<size_t>(SignedEncodingLength(static_cast<int64_t>(x)))"
        pure (some (toInt64 x, src.drop len))

example : writeSignedNumIncreasing [] 0x424242 = .ok [0xf0, 0x42, 0x42, 0x42] := by decide

example : writeSignedNumIncreasing [] (-0x800) = .ok [0x38, 0x00] := by decide

/-! ## Lengths -/

theorem kBitsToLength_eq (bits : Nat) (h : bits ≤ 63) :
    kBitsToLength.getD bits 0 = bits / 7 + 1 := by
  interval_cases bits <;> rfl

theorem magnitude_lt {n : Int} (h : IsInt64 n) : magnitude n < 2 ^ 63 := by
  obtain ⟨hlo, hhi⟩ := h
  unfold magnitude
  split <;> omega

theorem bitLength_bounds (n : Nat) : n < 2 ^ bitLength n ∧ (n = 0 ∨ 2 ^ bitLength n ≤ 2 * n) := by
  unfold bitLength
  split
  · next h => simp [h]
  · next h =>
      obtain ⟨hlo, hhi⟩ := (Nat.log2_eq_iff h).1 rfl
      rw [Nat.pow_succ] at hhi ⊢
      omega

/-- `len` is the number of bytes the code of `n` takes. -/
structure HasLength (n : Int) (len : Nat) : Prop where
  pos : 1 ≤ len
  le : len ≤ 10
  fits : 2 * magnitude n < 128 ^ len
  least : len = 1 ∨ 128 ^ (len - 1) ≤ 2 * magnitude n

theorem hasLength_signedEncodingLength {n : Int} (h : IsInt64 n) :
    HasLength n (signedEncodingLength n) := by
  have hlt := magnitude_lt h
  obtain ⟨hhi, hlo⟩ := bitLength_bounds (magnitude n)
  have hbits : bitLength (magnitude n) ≤ 63 := by
    by_contra hbits
    have hpow : 2 ^ 64 ≤ 2 ^ bitLength (magnitude n) :=
      Nat.pow_le_pow_right (by norm_num) (by omega)
    rcases hlo with hzero | hlo
    · rw [hzero] at hbits
      exact hbits (by decide)
    · omega
  have heq : signedEncodingLength n = bitLength (magnitude n) / 7 + 1 :=
    kBitsToLength_eq _ hbits
  have hpower : ∀ len, 128 ^ len = 2 ^ (7 * len) := fun len => by
    rw [Nat.pow_mul]
  refine ⟨by omega, by omega, ?_, ?_⟩
  · have hpow : 2 ^ (bitLength (magnitude n) + 1) ≤ 2 ^ (7 * signedEncodingLength n) :=
      Nat.pow_le_pow_right (by norm_num) (by omega)
    rw [Nat.pow_succ] at hpow
    rw [hpower]
    omega
  · by_cases hone : signedEncodingLength n = 1
    · exact Or.inl hone
    · right
      have hpow : 2 ^ (7 * (signedEncodingLength n - 1)) ≤ 2 ^ bitLength (magnitude n) :=
        Nat.pow_le_pow_right (by norm_num) (by omega)
      rw [hpower]
      rcases hlo with hzero | hlo
      · have hbit : bitLength (magnitude n) = 0 := by rw [hzero]; rfl
        omega
      · omega

/-- There is one such length only. -/
theorem HasLength.le_of_magnitude_le {n n' : Int} {len len' : Nat} (h : HasLength n len)
    (h' : HasLength n' len') (hle : magnitude n ≤ magnitude n') : len ≤ len' := by
  rcases h.least with hone | hleast
  · have := h'.pos
    omega
  · by_contra hlt
    have hpow : 128 ^ len' ≤ 128 ^ (len - 1) := Nat.pow_le_pow_right (by norm_num) (by omega)
    have := h'.fits
    omega

/-! ## The code of a number as a number -/

/-- The header bits of a code of `len` bytes, as a number. -/
def header (len : Nat) : Nat := 256 ^ len - 128 ^ len

/-- The number the code of `n` is, in `len` bytes. -/
def code (len : Nat) (n : Int) : Nat :=
  if n < 0 then ((128 ^ len : Nat) + n).toNat else header len + n.toNat

theorem header_eq (len : Nat) : header len = (2 ^ len - 1) * 2 ^ (7 * len) := by
  rw [header, Nat.sub_mul, Nat.pow_mul, ← Nat.mul_pow, Nat.one_mul]

/-- Xor over a number whose low bits are not concerned. -/
theorem xor_shifted (a c d k : Nat) (ha : a < 2 ^ k) :
    (c * 2 ^ k + a) ^^^ (d * 2 ^ k) = (c ^^^ d) * 2 ^ k + a := by
  have hdiv : ((c * 2 ^ k + a) ^^^ (d * 2 ^ k)) / 2 ^ k = c ^^^ d := by
    rw [Nat.xor_div_two_pow, Nat.mul_comm c, Nat.mul_add_div (by positivity), Nat.div_eq_of_lt ha,
      Nat.mul_div_cancel _ (by positivity), Nat.add_zero]
  have hmod : ((c * 2 ^ k + a) ^^^ (d * 2 ^ k)) % 2 ^ k = a := by
    rw [Nat.xor_mod_two_pow, Nat.mul_comm c, Nat.mul_add_mod, Nat.mod_eq_of_lt ha,
      Nat.mul_mod_left, Nat.xor_zero]
  have hsplit := Nat.div_add_mod ((c * 2 ^ k + a) ^^^ (d * 2 ^ k)) (2 ^ k)
  rw [hdiv, hmod, Nat.mul_comm] at hsplit
  exact hsplit.symm

/-- The header bits put over the code of a number, sign extended by `high` bits, give the number
    back in two's complement. -/
theorem xor_header {n : Int} {len : Nat} (h : HasLength n len) (high : Nat) :
    ((if n < 0 then (2 ^ high - 1) * 256 ^ len else 0) + code len n) ^^^ header len
      = (n % (2 ^ high * 256 ^ len : Nat)).toNat := by
  have hfits := h.fits
  have hpower : 128 ^ len = 2 ^ (7 * len) := by rw [Nat.pow_mul]
  have hsplit : 256 ^ len = 2 ^ len * 128 ^ len := by rw [← Nat.mul_pow]
  have hone : 1 ≤ 2 ^ high * 2 ^ len := Nat.one_le_iff_ne_zero.2 (by positivity)
  have htotal : 2 ^ high * 256 ^ len = 2 ^ high * 2 ^ len * 128 ^ len := by
    rw [hsplit, Nat.mul_assoc]
  have hle := Nat.mul_le_mul_right (128 ^ len) hone
  rw [htotal]
  unfold magnitude at hfits
  by_cases hneg : n < 0
  · rw [if_pos hneg] at hfits
    have hlow : ((128 ^ len : Nat) + n).toNat < 2 ^ (7 * len) := by omega
    have hshift : (2 ^ high - 1) * 256 ^ len = (2 ^ high - 1) * 2 ^ len * 2 ^ (7 * len) := by
      rw [hsplit, hpower, Nat.mul_assoc]
    have hxor : ((2 ^ high - 1) * 2 ^ len) ^^^ (2 ^ len - 1) = 2 ^ high * 2 ^ len - 1 := by
      have hadd := xor_shifted (2 ^ len - 1) 0 (2 ^ high - 1) len (by
        have := Nat.one_le_two_pow (n := len)
        omega)
      rw [Nat.zero_mul, Nat.zero_add, Nat.zero_xor, Nat.xor_comm] at hadd
      rw [hadd, Nat.sub_mul, Nat.one_mul]
      have := Nat.mul_le_mul_right (2 ^ len) (Nat.one_le_two_pow (n := high))
      have := Nat.one_le_two_pow (n := len)
      omega
    have hmod : n % (2 ^ high * 2 ^ len * 128 ^ len : Nat)
        = n + (2 ^ high * 2 ^ len * 128 ^ len : Nat) := by
      rw [← Int.add_emod_right, Int.emod_eq_of_lt (by omega) (by omega)]
    rw [if_pos hneg, code, if_pos hneg, hmod, header_eq, hshift, xor_shifted _ _ _ _ hlow, hxor,
      ← hpower, Nat.sub_mul]
    omega
  · rw [if_neg hneg] at hfits
    have hlow : n.toNat < 2 ^ (7 * len) := by omega
    rw [if_neg hneg, code, if_neg hneg, Nat.zero_add, header_eq, xor_shifted _ _ _ _ hlow,
      Nat.xor_self, Nat.zero_mul, Nat.zero_add, Int.emod_eq_of_lt (by omega) (by omega)]

/-- A number in two's complement with the header bits put over it is its code. -/
theorem xor_header' {n : Int} {len : Nat} (h : HasLength n len) :
    (n % (256 ^ len : Nat)).toNat ^^^ header len = code len n := by
  have hcode := xor_header h 0
  have hzero : ((if n < 0 then (2 ^ 0 - 1) * 256 ^ len else 0) + code len n) = code len n := by
    split <;> simp
  rw [hzero, Nat.pow_zero, Nat.one_mul] at hcode
  rw [← hcode, Nat.xor_assoc, Nat.xor_self, Nat.xor_zero]

theorem code_bounds {n : Int} {len : Nat} (h : HasLength n len) :
    (0 ≤ n → header len ≤ code len n ∧ 2 * code len n < 2 * header len + 128 ^ len) ∧
    (n < 0 → 128 ^ len ≤ 2 * code len n ∧ code len n < 128 ^ len) := by
  have hfits := h.fits
  unfold magnitude at hfits
  refine ⟨fun hnonneg => ?_, fun hneg => ?_⟩
  · rw [if_neg (by omega)] at hfits
    rw [code, if_neg (by omega)]
    omega
  · obtain ⟨q, hq⟩ : ∃ q, 128 ^ len = 2 * q := by
      refine ⟨64 * 128 ^ (len - 1), ?_⟩
      obtain ⟨m, rfl⟩ : ∃ m, len = m + 1 := ⟨len - 1, by have := h.pos; omega⟩
      rw [Nat.pow_succ, Nat.add_sub_cancel]
      ring
    have hpos : 0 < 128 ^ len := by positivity
    rw [if_pos hneg] at hfits
    rw [code, if_pos hneg]
    omega

theorem header_add (len : Nat) : header len + 128 ^ len = 256 ^ len := by
  have : 128 ^ len ≤ 256 ^ len := Nat.pow_le_pow_left (by norm_num) len
  unfold header
  omega

theorem code_lt {n : Int} {len : Nat} (h : HasLength n len) : code len n < 256 ^ len := by
  have hsum := header_add len
  obtain ⟨hnonneg, hneg⟩ := code_bounds h
  have hpos : 0 < 128 ^ len := by positivity
  rcases Int.lt_or_le n 0 with hn | hn
  · have := hneg hn
    omega
  · have := hnonneg hn
    omega

/-- The code of `n`. -/
def numberCode (n : Int) : ByteString :=
  Codec.toBytes (signedEncodingLength n) (code (signedEncodingLength n) n)

/-! ## What is written -/

theorem ofBytes_xorHeader {len : Nat} (hlo : 2 ≤ len) (hhi : len ≤ 10) {x : ByteString}
    (hx : x.length = len) :
    Codec.ofBytes (xorHeader len x) = Codec.ofBytes x ^^^ header len := by
  match x, hx with
  | [], hx => exact absurd hx.symm (by simp; omega)
  | [_], hx => exact absurd hx.symm (by simp; omega)
  | b₀ :: b₁ :: rest, hx =>
      have hrest : rest.length = len - 2 := by
        simp only [List.length_cons] at hx
        omega
      have hpower : 256 ^ rest.length = 2 ^ (8 * rest.length) := by rw [Nat.pow_mul]
      have hlt := Codec.ofBytes_lt rest
      rw [hpower] at hlt
      obtain ⟨h₀, h₁, hheader, hvalue⟩ : ∃ h₀ h₁, kLengthToHeaderBits.getD len (0, 0) = (h₀, h₁) ∧
          header len = (h₀.toNat * 2 ^ 8 + h₁.toNat) * 256 ^ (len - 2) := by
        interval_cases len <;> exact ⟨_, _, rfl, by decide⟩
      have hbytes : ∀ b b' : UInt8, Codec.ofBytes (b :: b' :: rest)
          = (b.toNat * 2 ^ 8 + b'.toNat) * 2 ^ (8 * rest.length) + Codec.ofBytes rest := by
        intro b b'
        rw [Codec.ofBytes_cons, Codec.ofBytes_cons, List.length_cons, Nat.pow_succ, ← hpower]
        ring
      have hpair : (b₀.toNat * 2 ^ 8 + b₁.toNat) ^^^ (h₀.toNat * 2 ^ 8 + h₁.toNat)
          = (b₀ ^^^ h₀).toNat * 2 ^ 8 + (b₁ ^^^ h₁).toNat := by
        have hb := b₁.toNat_lt
        have hh := h₁.toNat_lt
        have hdiv := Nat.xor_div_two_pow (a := b₀.toNat * 2 ^ 8 + b₁.toNat)
          (b := h₀.toNat * 2 ^ 8 + h₁.toNat) (n := 8)
        have hmod := Nat.xor_mod_two_pow (a := b₀.toNat * 2 ^ 8 + b₁.toNat)
          (b := h₀.toNat * 2 ^ 8 + h₁.toNat) (n := 8)
        have hquot : ∀ c d : Nat, d < 256 → (c * 2 ^ 8 + d) / 2 ^ 8 = c ∧ (c * 2 ^ 8 + d) % 2 ^ 8 = d :=
          fun c d hd => ⟨by omega, by omega⟩
        rw [(hquot _ _ hb).1, (hquot _ _ hh).1] at hdiv
        rw [(hquot _ _ hb).2, (hquot _ _ hh).2] at hmod
        rw [UInt8.toNat_xor, UInt8.toNat_xor]
        omega
      rw [xorHeader, hheader, hbytes, hbytes, hvalue, ← hrest, hpower, xor_shifted _ _ _ _ hlt,
        hpair]

theorem length_xorHeader (len : Nat) (x : ByteString) : (xorHeader len x).length = x.length := by
  match x with
  | [] | [_] | _ :: _ :: _ => rfl

theorem toNat_toUInt64 (n : Int) : (toUInt64 n).toNat = (n % 2 ^ 64).toNat := by
  rw [toUInt64, UInt64.toNat_ofNat']
  omega

theorem writeSignedNumIncreasing_eq {n : Int} (hn : IsInt64 n) (dest : ByteString) :
    writeSignedNumIncreasing dest n = .ok (dest ++ numberCode n) := by
  have hlength := hasLength_signedEncodingLength hn
  obtain ⟨hlo, hhi⟩ := hn
  unfold writeSignedNumIncreasing
  by_cases hsmall : magnitude n < 64
  · have hone : signedEncodingLength n = 1 := by
      rcases hlength.least with hone | hleast
      · exact hone
      · by_contra hne
        have hpow : 128 ^ 1 ≤ 128 ^ (signedEncodingLength n - 1) :=
          Nat.pow_le_pow_right (by norm_num) (by have := hlength.pos; omega)
        omega
    rw [if_pos hsmall]
    refine congrArg (fun code => Except.ok (dest ++ code)) (Codec.ofBytes_injective ?_ ?_)
    · rw [numberCode, Codec.length_toBytes, hone]
      rfl
    · have hcode := xor_header' hlength
      have hbound := code_lt hlength
      rw [hone] at hcode hbound
      have hbyte : (toUInt64 n).toUInt8.toNat = (n % (256 ^ 1 : Nat)).toNat := by
        rw [UInt64.toNat_toUInt8, toNat_toUInt64]
        omega
      rw [numberCode, Codec.ofBytes_toBytes, hone, Nat.mod_eq_of_lt hbound, Codec.ofBytes_singleton,
        UInt8.toNat_xor, hbyte, Nat.xor_comm]
      exact hcode
  · have htwo : 2 ≤ signedEncodingLength n := by
      by_contra hlt
      have hone : signedEncodingLength n = 1 := by
        have := hlength.pos
        omega
      have hfits := hlength.fits
      rw [hone] at hfits
      omega
    rw [if_neg hsmall]
    dsimp only
    generalize hsign : (if n < 0 then (0xff : UInt8) else 0x00) = signByte
    generalize hbuf : signByte :: signByte :: Codec.toBytes 8 (toUInt64 n).toNat = buf
    have hbufLength : buf.length = 10 := by
      rw [← hbuf]
      simp
    have hbufValue : Codec.ofBytes buf = (n % (256 ^ 10 : Nat)).toNat := by
      rw [← hbuf, Codec.ofBytes_cons, Codec.ofBytes_cons, Codec.ofBytes_toBytes, List.length_cons,
        Codec.length_toBytes, toNat_toUInt64, ← hsign]
      split
      · have hb : (0xff : UInt8).toNat = 255 := rfl
        rw [hb]
        omega
      · have hb : (0x00 : UInt8).toNat = 0 := rfl
        rw [hb]
        omega
    have hassert : buf.length = kMaxSigned64Length := hbufLength
    simp only [bind, Except.bind, pure, Except.pure, hardAssert_of hassert, hardAssert_of htwo]
    have hle : signedEncodingLength n ≤ buf.length := by
      rw [hbufLength]
      exact hlength.le
    have hdrop : (buf.drop (buf.length - signedEncodingLength n)).length = signedEncodingLength n := by
      rw [List.length_drop]
      omega
    refine congrArg (fun code => Except.ok (dest ++ code)) (Codec.ofBytes_injective ?_ ?_)
    · rw [length_xorHeader, hdrop, numberCode, Codec.length_toBytes]
    · have hvalue : Codec.ofBytes (buf.drop (buf.length - signedEncodingLength n))
          = (n % (256 ^ signedEncodingLength n : Nat)).toNat := by
        rw [Codec.ofBytes_drop _ _ hle, hbufValue]
        have hdvd : (256 ^ signedEncodingLength n : Nat) ∣ 256 ^ 10 := Nat.pow_dvd_pow _ hlength.le
        zify
        rw [Int.toNat_of_nonneg (Int.emod_nonneg _ (by positivity)),
          Int.toNat_of_nonneg (Int.emod_nonneg _ (by positivity))]
        exact Int.emod_emod_of_dvd _ (Int.natCast_dvd_natCast.2 hdvd)
      rw [ofBytes_xorHeader htwo hlength.le hdrop, hvalue, xor_header' hlength, numberCode,
        Codec.ofBytes_toBytes, Nat.mod_eq_of_lt (code_lt hlength)]

/-! ## The order of numbers -/

/-- One byte more lifts the code of a positive number over all shorter ones. -/
theorem longer_above {len len' : Nat} (h : len < len') :
    2 * 128 ^ len' * 256 ^ len ≤ 128 ^ len * 256 ^ len' := by
  obtain ⟨d, rfl⟩ : ∃ d, len' = len + 1 + d := ⟨len' - (len + 1), by omega⟩
  have hpow : 128 ^ d ≤ 256 ^ d := Nat.pow_le_pow_left (by norm_num) d
  have hle := Nat.mul_le_mul_left (256 * 128 ^ len * 256 ^ len) hpow
  calc 2 * 128 ^ (len + 1 + d) * 256 ^ len
      = 256 * 128 ^ len * 256 ^ len * 128 ^ d := by ring
    _ ≤ 256 * 128 ^ len * 256 ^ len * 256 ^ d := hle
    _ = 128 ^ len * 256 ^ (len + 1 + d) := by ring

theorem two_mul_pow_le {k : Nat} (hk : 1 ≤ k) : 2 * 128 ^ k ≤ 256 ^ k := by
  have htwo : 2 ^ 1 ≤ 2 ^ k := Nat.pow_le_pow_right (by norm_num) hk
  have hmul := Nat.mul_le_mul_right (128 ^ k) htwo
  rw [← Nat.mul_pow] at hmul
  simpa using hmul

theorem two_dvd_pow {k : Nat} (hk : 1 ≤ k) : 2 ∣ 128 ^ k :=
  (by norm_num : 2 ∣ 128).trans (dvd_pow_self 128 (by omega))

section Below

variable {n n' : Int} {len len' : Nat}

/-- Of two negative numbers the larger is not longer. -/
theorem code_below_of_neg (h : HasLength n len) (h' : HasLength n' len') (hlt : n < n')
    (hn'neg : n' < 0) : (code len n + 1) * 256 ^ len' ≤ code len' n' * 256 ^ len := by
  obtain ⟨-, hneg⟩ := code_bounds h
  obtain ⟨-, hneg'⟩ := code_bounds h'
  have hle : len' ≤ len := h'.le_of_magnitude_le h (by unfold magnitude; split <;> split <;> omega)
  rcases Nat.eq_or_lt_of_le hle with rfl | hshorter
  · have hc : code len' n < code len' n' := by
      have := h.fits
      have := h'.fits
      unfold magnitude at *
      rw [code, code, if_pos (by omega), if_pos hn'neg]
      split_ifs at * <;> omega
    exact Nat.mul_le_mul_right _ hc
  · obtain ⟨-, hupper⟩ := hneg (by omega)
    obtain ⟨hlower, -⟩ := hneg' hn'neg
    have hkey := longer_above hshorter
    have hleft : (code len n + 1) * 256 ^ len' ≤ 128 ^ len * 256 ^ len' :=
      Nat.mul_le_mul_right _ hupper
    have hright : 128 ^ len' * 256 ^ len ≤ 2 * code len' n' * 256 ^ len :=
      Nat.mul_le_mul_right _ hlower
    have hdouble : 2 * 128 ^ len * 256 ^ len' = 2 * (128 ^ len * 256 ^ len') := by ring
    have hdouble' : 2 * code len' n' * 256 ^ len = 2 * (code len' n' * 256 ^ len) := by ring
    omega

/-- A negative number has a clear sign bit, the other a set one. -/
theorem code_below_of_sign (h : HasLength n len) (h' : HasLength n' len') (hnneg : n < 0)
    (hn'pos : 0 ≤ n') : (code len n + 1) * 256 ^ len' ≤ code len' n' * 256 ^ len := by
  obtain ⟨-, hupper⟩ := (code_bounds h).2 hnneg
  obtain ⟨hlower, -⟩ := (code_bounds h').1 hn'pos
  have hsum' := header_add len'
  have hleft : (code len n + 1) * 256 ^ len' ≤ 128 ^ len * 256 ^ len' :=
    Nat.mul_le_mul_right _ hupper
  have hmid : 2 * 128 ^ len * 256 ^ len' ≤ 256 ^ len * 256 ^ len' :=
    Nat.mul_le_mul_right _ (two_mul_pow_le h.pos)
  have hright : 256 ^ len' * 256 ^ len ≤ 2 * code len' n' * 256 ^ len := by
    refine Nat.mul_le_mul_right _ ?_
    have := two_mul_pow_le h'.pos
    omega
  have hdouble : 2 * 128 ^ len * 256 ^ len' = 2 * (128 ^ len * 256 ^ len') := by ring
  have hdouble' : 2 * code len' n' * 256 ^ len = 2 * (code len' n' * 256 ^ len) := by ring
  have hswap : 256 ^ len' * 256 ^ len = 256 ^ len * 256 ^ len' := Nat.mul_comm _ _
  omega

/-- Of two other numbers the larger is not shorter. -/
theorem code_below_of_nonneg (h : HasLength n len) (h' : HasLength n' len') (hlt : n < n')
    (hnpos : 0 ≤ n) : (code len n + 1) * 256 ^ len' ≤ code len' n' * 256 ^ len := by
  obtain ⟨hpos, -⟩ := code_bounds h
  obtain ⟨hpos', -⟩ := code_bounds h'
  obtain ⟨hlower, -⟩ := hpos' (by omega)
  have hsum := header_add len
  have hsum' := header_add len'
  obtain ⟨q, hq⟩ := two_dvd_pow h.pos
  have hle : len ≤ len' := h.le_of_magnitude_le h' (by unfold magnitude; split <;> split <;> omega)
  rcases Nat.eq_or_lt_of_le hle with rfl | hshorter
  · have hc : code len n < code len n' := by
      rw [code, code, if_neg (by omega), if_neg (by omega)]
      omega
    exact Nat.mul_le_mul_right _ hc
  · obtain ⟨-, hupper⟩ := hpos hnpos
    have hkey := longer_above hshorter
    have hleft : (2 * code len n + 2 + 128 ^ len) * 256 ^ len' ≤ 2 * 256 ^ len * 256 ^ len' :=
      Nat.mul_le_mul_right _ (by omega)
    have hright : (256 ^ len' - 128 ^ len') * 256 ^ len ≤ code len' n' * 256 ^ len :=
      Nat.mul_le_mul_right _ (by omega)
    rw [Nat.sub_mul] at hright
    have hexpand : (2 * code len n + 2 + 128 ^ len) * 256 ^ len'
        = 2 * ((code len n + 1) * 256 ^ len') + 128 ^ len * 256 ^ len' := by ring
    have hdouble : 2 * 128 ^ len' * 256 ^ len = 2 * (128 ^ len' * 256 ^ len) := by ring
    have hswap : 2 * 256 ^ len * 256 ^ len' = 2 * (256 ^ len' * 256 ^ len) := by ring
    omega

end Below

/-- **The codes of numbers are ordered like the numbers.** -/
theorem numberCode_below {n n' : Int} (hn : IsInt64 n) (hn' : IsInt64 n') (hlt : n < n') :
    Codec.Below (numberCode n) (numberCode n') := by
  have h := hasLength_signedEncodingLength hn
  have h' := hasLength_signedEncodingLength hn'
  refine Codec.below_of_ofBytes ?_
  rw [numberCode, numberCode, Codec.ofBytes_toBytes, Codec.ofBytes_toBytes, Codec.length_toBytes,
    Codec.length_toBytes, Nat.mod_eq_of_lt (code_lt h), Nat.mod_eq_of_lt (code_lt h')]
  rcases Int.lt_or_le n' 0 with hn'neg | hn'pos
  · exact code_below_of_neg h h' hlt hn'neg
  · rcases Int.lt_or_le n 0 with hnneg | hnpos
    · exact code_below_of_sign h h' hnneg hn'pos
    · exact code_below_of_nonneg h h' hlt hnpos

/-! ## What is read -/

theorem and_0x80_iff (c : UInt8) : c &&& 0x80 = 0 ↔ c.toNat < 128 := by
  have hall : ∀ c : Fin 256, UInt8.ofFin c &&& 0x80 = 0 ↔ c.val < 128 := by decide +kernel
  exact hall c.toFin

theorem toNat_xor_0xff (c : UInt8) : (c ^^^ 0xff).toNat = 255 - c.toNat := by
  have hall : ∀ c : Fin 256, (UInt8.ofFin c ^^^ 0xff).toNat = 255 - c.val := by decide +kernel
  exact hall c.toFin

/-- A byte as the reader sees it: complemented if the first byte `c` says that the number is
    negative. -/
def seen (c b : UInt8) : Nat := if c.toNat < 128 then 255 - b.toNat else b.toNat

theorem toNat_xor_xorMask (c b : UInt8) :
    (b ^^^ (if c &&& 0x80 = 0 then (0xffffffffffffffff : UInt64) else 0).toUInt8).toNat
      = seen c b := by
  unfold seen
  by_cases hc : c.toNat < 128
  · rw [if_pos ((and_0x80_iff c).2 hc), if_pos hc]
    exact toNat_xor_0xff b
  · rw [if_neg (mt (and_0x80_iff c).1 hc), if_neg hc]
    change (b ^^^ 0).toNat = _
    rw [UInt8.xor_zero]

/-- Shifting the bytes in one after the other. -/
theorem toNat_foldl_shift (bytes : ByteString) (x : UInt64) :
    (bytes.foldl (fun (x : UInt64) c => (x <<< 8) ||| c.toUInt64) x).toNat
      = (x.toNat * 256 ^ bytes.length + Codec.ofBytes bytes) % 2 ^ 64 := by
  induction bytes generalizing x with
  | nil => simp
  | cons c bytes ih =>
      have hc : c.toNat < 2 ^ 8 := c.toNat_lt
      have hstep : ((x <<< 8) ||| c.toUInt64).toNat = (x.toNat * 256 + c.toNat) % 2 ^ 64 := by
        have hshift : (x <<< 8).toNat = 2 ^ 8 * (x.toNat % 2 ^ 56) := by
          rw [UInt64.toNat_shiftLeft, Nat.shiftLeft_eq]
          change x.toNat * 2 ^ 8 % 2 ^ 64 = _
          omega
        rw [UInt64.toNat_or, UInt8.toNat_toUInt64, hshift, ← Nat.two_pow_add_eq_or_of_lt hc]
        omega
      rw [List.foldl_cons, ih, hstep, Codec.ofBytes_cons, List.length_cons, Nat.pow_succ,
        Nat.add_mod, Nat.mul_mod, Nat.mod_mod, ← Nat.mul_mod, ← Nat.add_mod]
      congr 1
      ring

/-- What the header of a code of `len` bytes says. -/
def HeaderOf (src : ByteString) (len : Nat) : Prop :=
  let c := byteAt src 0
  if len ≤ 7 then
    2 ^ (7 - len) ≤ 255 - seen c c ∧ 255 - seen c c < 2 ^ (8 - len)
  else
    seen c c = 255 ∧
      ((len = 8 ∧ seen c (byteAt src 1) < 128) ∨
        (len = 9 ∧ 128 ≤ seen c (byteAt src 1) ∧ seen c (byteAt src 1) < 192) ∨
        (len = 10 ∧ seen c (byteAt src 1) = 192 ∧ seen c (byteAt src 2) < 128))

theorem longLength_iff (secondByte thirdByte : UInt8) (len : Nat) :
    longLength secondByte thirdByte = some len ↔
      (len = 8 ∧ secondByte.toNat < 128) ∨
        (len = 9 ∧ 128 ≤ secondByte.toNat ∧ secondByte.toNat < 192) ∨
        (len = 10 ∧ secondByte.toNat = 192 ∧ thirdByte.toNat < 128) := by
  have h80 : (0x80 : UInt8) ≤ secondByte ↔ 128 ≤ secondByte.toNat := UInt8.le_iff_toNat_le
  have hc0 : secondByte < (0xc0 : UInt8) ↔ secondByte.toNat < 192 := UInt8.lt_iff_toNat_lt
  have hc0' : secondByte = (0xc0 : UInt8) ↔ secondByte.toNat = 192 := UInt8.toNat_inj.symm
  have h80' : thirdByte < (0x80 : UInt8) ↔ thirdByte.toNat < 128 := UInt8.lt_iff_toNat_lt
  unfold longLength
  simp only [h80, hc0, hc0', h80']
  split_ifs <;> simp <;> omega

/-- The eight bytes read for a long code are its number modulo `2 ^ 64`, sign mask included. -/
theorem toNat_longRaw {src : ByteString} {len : Nat} (hlo : 8 ≤ len) (hhi : len ≤ src.length) :
    (UInt64.ofNat (Codec.ofBytes ((src.drop (len - 8)).take 8))).toNat
      = ((if (byteAt src 0).toNat < 128 then (2 ^ 64 - 1) * 256 ^ len else 0)
        + Codec.ofBytes (src.take len)) % 2 ^ 64 := by
  have hlast : (src.drop (len - 8)).take 8 = (src.take len).drop ((src.take len).length - 8) := by
    rw [List.length_take, Nat.min_eq_left hhi, List.drop_take]
    congr 1
    omega
  have hmask : (if (byteAt src 0).toNat < 128 then (2 ^ 64 - 1) * 256 ^ len else 0) % 2 ^ 64
      = 0 := by
    split
    · obtain ⟨m, rfl⟩ : ∃ m, len = 8 + m := ⟨len - 8, by omega⟩
      have hsplit : (2 ^ 64 - 1) * 256 ^ (8 + m) = 2 ^ 64 * ((2 ^ 64 - 1) * 256 ^ m) := by
        rw [Nat.pow_add]
        ring
      rw [hsplit, Nat.mul_mod_right]
    · rfl
  have hpower : (256 : Nat) ^ 8 = 2 ^ 64 := by norm_num
  rw [UInt64.toNat_ofNat', hlast, Codec.ofBytes_drop _ _ (by rw [List.length_take]; omega),
    hpower, Nat.mod_mod, Nat.add_mod, hmask, Nat.zero_add, Nat.mod_mod]

theorem seen_bounds (c : UInt8) : 128 ≤ seen c c ∧ seen c c ≤ 255 := by
  have := c.toNat_lt
  unfold seen
  split <;> omega

/-- The test for a long code. -/
theorem seen_eq_255_iff (c : UInt8) :
    (c ^^^ (if c &&& 0x80 = 0 then (0xffffffffffffffff : UInt64) else 0).toUInt8) = 0xff ↔
      seen c c = 255 := by
  rw [← UInt8.toNat_inj, toNat_xor_xorMask]
  rfl

/-- The bytes of a short code, shifted into the sign mask one by one, are its number likewise. -/
theorem toNat_shortRaw {src : ByteString} (c : UInt8) {len : Nat} (hlen : len ≤ src.length) :
    ((src.take len).foldl (fun (x : UInt64) c => (x <<< 8) ||| c.toUInt64)
        (if c &&& 0x80 = 0 then 0xffffffffffffffff else 0)).toNat
      = ((if c.toNat < 128 then (2 ^ 64 - 1) * 256 ^ len else 0)
        + Codec.ofBytes (src.take len)) % 2 ^ 64 := by
  have hmask : (if c &&& 0x80 = 0 then (0xffffffffffffffff : UInt64) else 0).toNat
      = if c.toNat < 128 then 2 ^ 64 - 1 else 0 := by
    simp only [and_0x80_iff]
    split <;> rfl
  rw [toNat_foldl_shift, hmask, List.length_take, Nat.min_eq_left hlen]
  split <;> simp

/-- What a long code must have in its first two bytes for the length that is found. -/
theorem lengthAndRaw_iff_of_long {src : ByteString} {len : Nat} {x : UInt64}
    (hfull : seen (byteAt src 0) (byteAt src 0) = 255) :
    lengthAndRaw src = some (len, x) ↔
      1 ≤ len ∧ len ≤ src.length ∧ HeaderOf src len ∧
        x.toNat = ((if (byteAt src 0).toNat < 128 then (2 ^ 64 - 1) * 256 ^ len else 0)
          + Codec.ofBytes (src.take len)) % 2 ^ 64 := by
  unfold lengthAndRaw HeaderOf
  simp only
  rw [if_neg (not_not.2 ((seen_eq_255_iff _).2 hfull))]
  constructor
  · intro h
    split at h
    · exact absurd h (by simp)
    · next hlength =>
        split at h
        · exact absurd h (by simp)
        · next found hfound =>
            split at h
            · exact absurd h (by simp)
            · next henough =>
                obtain ⟨rfl, rfl⟩ := Prod.mk.inj (Option.some.inj h)
                rw [longLength_iff, toNat_xor_xorMask, toNat_xor_xorMask] at hfound
                refine ⟨by omega, by omega, ?_, toNat_longRaw (by omega) (by omega)⟩
                rw [if_neg (by omega)]
                exact ⟨hfull, hfound⟩
  · rintro ⟨hpos, hle, hheader, hx⟩
    rw [hfull] at hheader
    have hge : ¬ len ≤ 7 := by
      intro hlt
      rw [if_pos hlt] at hheader
      have := Nat.two_pow_pos (7 - len)
      omega
    rw [if_neg hge] at hheader
    obtain ⟨-, hfound⟩ := hheader
    have hlengths := hfound
    rw [← toNat_xor_xorMask, ← toNat_xor_xorMask, ← longLength_iff] at hfound
    rw [if_neg (by omega), hfound]
    simp only
    rw [if_neg (by omega), Option.some.injEq, Prod.mk.injEq]
    refine ⟨rfl, UInt64.toNat_inj.1 ?_⟩
    rw [hx, toNat_longRaw (by omega) hle]

/-- The length of a short code is read off the leading bits of its first byte. -/
theorem lengthAndRaw_iff_of_short {src : ByteString} {len : Nat} {x : UInt64}
    (hshort : seen (byteAt src 0) (byteAt src 0) ≠ 255) :
    lengthAndRaw src = some (len, x) ↔
      1 ≤ len ∧ len ≤ src.length ∧ HeaderOf src len ∧
        x.toNat = ((if (byteAt src 0).toNat < 128 then (2 ^ 64 - 1) * 256 ^ len else 0)
          + Codec.ofBytes (src.take len)) % 2 ^ 64 := by
  have hseen := seen_bounds (byteAt src 0)
  unfold lengthAndRaw HeaderOf
  simp only
  rw [if_pos (mt (seen_eq_255_iff _).1 hshort), toNat_xor_0xff, toNat_xor_xorMask]
  generalize byteAt src 0 = c at hshort hseen ⊢
  obtain ⟨hlo, hhi⟩ := (Nat.log2_eq_iff (n := 255 - seen c c) (by omega)).1 rfl
  have hsmall : Nat.log2 (255 - seen c c) < 7 := by
    rw [Nat.log2_lt (by omega)]
    omega
  constructor
  · intro h
    split at h
    · exact absurd h (by simp)
    · next hlength =>
        obtain ⟨rfl, rfl⟩ := Prod.mk.inj (Option.some.inj h)
        refine ⟨by omega, by omega, ?_, toNat_shortRaw c (by omega)⟩
        have hlog : 7 - (7 - Nat.log2 (255 - seen c c)) = Nat.log2 (255 - seen c c) := by omega
        have hlog' : 8 - (7 - Nat.log2 (255 - seen c c)) = Nat.log2 (255 - seen c c) + 1 := by
          omega
        rw [if_pos (by omega), hlog, hlog']
        exact ⟨hlo, hhi⟩
  · rintro ⟨hpos, hle, hheader, hx⟩
    have hlt : len ≤ 7 := by
      by_contra hge
      rw [if_neg hge] at hheader
      exact hshort hheader.1
    rw [if_pos hlt] at hheader
    have hlog : Nat.log2 (255 - seen c c) = 7 - len := by
      refine (Nat.log2_eq_iff (by omega)).2 ⟨hheader.1, ?_⟩
      have hexp : 7 - len + 1 = 8 - len := by omega
      rw [hexp]
      exact hheader.2
    have hlen : 7 - (7 - len) = len := by omega
    rw [hlog, hlen, if_neg (by omega), Option.some.injEq, Prod.mk.injEq]
    refine ⟨rfl, UInt64.toNat_inj.1 ?_⟩
    rw [hx, toNat_shortRaw c hle]

/-- **What `lengthAndRaw` finds**: the length the header gives if there are as many bytes, and then
    their number, sign extended. -/
theorem lengthAndRaw_iff (src : ByteString) (len : Nat) (x : UInt64) :
    lengthAndRaw src = some (len, x) ↔
      1 ≤ len ∧ len ≤ src.length ∧ HeaderOf src len ∧
        x.toNat = ((if (byteAt src 0).toNat < 128 then (2 ^ 64 - 1) * 256 ^ len else 0)
          + Codec.ofBytes (src.take len)) % 2 ^ 64 := by
  by_cases hfull : seen (byteAt src 0) (byteAt src 0) = 255
  · exact lengthAndRaw_iff_of_long hfull
  · exact lengthAndRaw_iff_of_short hfull

/-- The number of a string, by its first byte. -/
theorem ofBytes_take_one {src : ByteString} {len : Nat} (hpos : 1 ≤ len) (hle : len ≤ src.length) :
    ∃ t, t < 256 ^ (len - 1) ∧
      Codec.ofBytes (src.take len) = (byteAt src 0).toNat * 256 ^ (len - 1) + t := by
  match src, len, hpos with
  | c :: src, len + 1, _ =>
      have hlength : (src.take len).length = len := by
        rw [List.length_take]
        simp only [List.length_cons] at hle
        omega
      have hlt := Codec.ofBytes_lt (src.take len)
      rw [hlength] at hlt
      refine ⟨_, hlt, ?_⟩
      rw [List.take_succ_cons, Codec.ofBytes_cons, hlength]
      rfl
  | [], len + 1, _ => exact absurd hle (by simp)

/-- The number of a string, by its first three bytes. -/
theorem ofBytes_take_three {src : ByteString} {len : Nat} (hpos : 3 ≤ len)
    (hle : len ≤ src.length) :
    ∃ t, t < 256 ^ (len - 3) ∧
      Codec.ofBytes (src.take len) = ((byteAt src 0).toNat * 256 ^ 2 + (byteAt src 1).toNat * 256
        + (byteAt src 2).toNat) * 256 ^ (len - 3) + t := by
  match src, len, hpos with
  | c₀ :: c₁ :: c₂ :: src, len + 3, _ =>
      have hlength : (src.take len).length = len := by
        rw [List.length_take]
        simp only [List.length_cons] at hle
        omega
      have hlt := Codec.ofBytes_lt (src.take len)
      rw [hlength] at hlt
      refine ⟨_, hlt, ?_⟩
      simp only [List.take_succ_cons, Codec.ofBytes_cons, List.length_cons, hlength, byteAt_zero,
        byteAt_succ, Nat.add_sub_cancel]
      ring
  | [], len + 3, _ => exact absurd hle (by simp)
  | [_], len + 3, _ => exact absurd hle (by simp)
  | [_, _], len + 3, _ => exact absurd hle (by simp)

/-- The numbers of the codes of `len` bytes. -/
def InRange (len v : Nat) : Prop :=
  (header len ≤ v ∧ 2 * v < 2 * header len + 128 ^ len ∧ v < header len + 2 ^ 63) ∨
    (128 ^ len ≤ 2 * v ∧ v < 128 ^ len ∧ 128 ^ len ≤ v + 2 ^ 63)

theorem short_header {len c t : Nat} (hpos : 1 ≤ len) (hle : len ≤ 7) (ht : t < 256 ^ (len - 1))
    (hc : c < 256) (h : InRange len (c * 256 ^ (len - 1) + t)) :
    (2 ^ (7 - len) ≤ 255 - (if c < 128 then 255 - c else c) ∧
      255 - (if c < 128 then 255 - c else c) < 2 ^ (8 - len)) ∧
    (c < 128 ↔ c * 256 ^ (len - 1) + t < 128 ^ len) := by
  unfold InRange header at h
  interval_cases len <;>
    simp only [Nat.reduceSub, Nat.reducePow, Nat.reduceMul, Nat.reduceAdd] at ht h ⊢ <;>
    split_ifs <;> omega

theorem long_header {len c₀ c₁ c₂ t : Nat} (hlo : 8 ≤ len) (hhi : len ≤ 10)
    (ht : t < 256 ^ (len - 3)) (h₀ : c₀ < 256) (h₁ : c₁ < 256) (h₂ : c₂ < 256)
    (h : InRange len ((c₀ * 256 ^ 2 + c₁ * 256 + c₂) * 256 ^ (len - 3) + t)) :
    ((if c₀ < 128 then 255 - c₀ else c₀) = 255 ∧
      ((len = 8 ∧ (if c₀ < 128 then 255 - c₁ else c₁) < 128) ∨
        (len = 9 ∧ 128 ≤ (if c₀ < 128 then 255 - c₁ else c₁) ∧
          (if c₀ < 128 then 255 - c₁ else c₁) < 192) ∨
        (len = 10 ∧ (if c₀ < 128 then 255 - c₁ else c₁) = 192 ∧
          (if c₀ < 128 then 255 - c₂ else c₂) < 128))) ∧
    (c₀ < 128 ↔ (c₀ * 256 ^ 2 + c₁ * 256 + c₂) * 256 ^ (len - 3) + t < 128 ^ len) := by
  unfold InRange header at h
  interval_cases len <;>
    simp only [Nat.reduceSub, Nat.reducePow, Nat.reduceMul, Nat.reduceAdd, Nat.reduceEqDiff,
      true_and, false_and, or_false, false_or] at ht h ⊢ <;>
    split_ifs <;> omega

/-- Two strings with codes of one length and one raw result begin with the same code. -/
theorem take_eq_of_raw {src src' : ByteString} {len : Nat} {x : UInt64}
    (h : lengthAndRaw src = some (len, x)) (h' : lengthAndRaw src' = some (len, x)) :
    src.take len = src'.take len := by
  rw [lengthAndRaw_iff] at h h'
  obtain ⟨hpos, hle, hheader, hx⟩ := h
  obtain ⟨-, hle', hheader', hx'⟩ := h'
  have hlt := Codec.ofBytes_lt (src.take len)
  have hlt' := Codec.ofBytes_lt (src'.take len)
  have hlength : (src.take len).length = len := by rw [List.length_take]; omega
  have hlength' : (src'.take len).length = len := by rw [List.length_take]; omega
  refine Codec.ofBytes_injective (hlength.trans hlength'.symm) ?_
  rw [hlength] at hlt
  rw [hlength'] at hlt'
  rw [hx] at hx'
  by_cases hshort : len ≤ 8
  -- all the bytes are in the raw result
  · have hmod : ∀ (m y : Nat), y < 256 ^ len →
        ((if m < 128 then (2 ^ 64 - 1) * 256 ^ len else 0) + y) % 2 ^ 64 % 256 ^ len = y := by
      intro m y hy
      have hdvd : 256 ^ len ∣ 2 ^ 64 := by
        have hpower : (2 : Nat) ^ 64 = 256 ^ 8 := by norm_num
        rw [hpower]
        exact Nat.pow_dvd_pow _ hshort
      rw [Nat.mod_mod_of_dvd _ hdvd]
      split
      · rw [Nat.mul_add_mod_of_lt hy]
      · rw [Nat.zero_add, Nat.mod_eq_of_lt hy]
    rw [← hmod _ _ hlt, hx', hmod _ _ hlt']
  -- of the longer codes it has the last eight bytes, and the header gives the others
  · obtain ⟨t, ht, hvalue⟩ := ofBytes_take_three (by omega) hle
    obtain ⟨t', ht', hvalue'⟩ := ofBytes_take_three (by omega) hle'
    have h₁ := (byteAt src 1).toNat_lt
    have h₂ := (byteAt src 2).toNat_lt
    have h₁' := (byteAt src' 1).toNat_lt
    have h₂' := (byteAt src' 2).toNat_lt
    unfold HeaderOf seen at hheader hheader'
    rw [if_neg (by omega)] at hheader hheader'
    have hle10 : len ≤ 10 := by omega
    rw [hvalue, hvalue'] at hx'
    rw [hvalue, hvalue']
    have hdrop : ∀ (m y : Nat), ((if m < 128 then (2 ^ 64 - 1) * 256 ^ len else 0) + y) % 2 ^ 64
        = y % 2 ^ 64 := by
      intro m y
      have hlarge : 256 ^ len = 2 ^ 64 * 256 ^ (len - 8) := by
        obtain ⟨d, rfl⟩ : ∃ d, len = 8 + d := ⟨len - 8, by omega⟩
        rw [Nat.pow_add, Nat.add_sub_cancel_left]
        norm_num
      split
      · rw [hlarge, Nat.mul_left_comm, Nat.mul_add_mod]
      · rw [Nat.zero_add]
    rw [hdrop, hdrop] at hx'
    generalize (byteAt src 0).toNat = c₀ at *
    generalize (byteAt src 1).toNat = c₁ at *
    generalize (byteAt src 2).toNat = c₂ at *
    generalize (byteAt src' 0).toNat = c₀' at *
    generalize (byteAt src' 1).toNat = c₁' at *
    generalize (byteAt src' 2).toNat = c₂' at *
    clear hvalue hvalue' hlt hlt' hlength hlength' hx hdrop
    have hcases : len = 9 ∨ len = 10 := by omega
    rcases hcases with rfl | rfl <;>
      simp only [Nat.reduceSub, Nat.reducePow, Nat.reduceEqDiff, true_and, false_and, or_false,
        false_or] at * <;>
      split_ifs at * <;> omega

/-- **The header of a code is read back**, with the sign extended number. -/
theorem lengthAndRaw_numberCode {n : Int} (hn : IsInt64 n) (rest : ByteString) :
    ∃ x, lengthAndRaw (numberCode n ++ rest) = some (signedEncodingLength n, x) ∧
      toInt64 (x ^^^ kLengthToMask.getD (signedEncodingLength n) 0) = n := by
  have h := hasLength_signedEncodingLength hn
  have hcode : (numberCode n).length = signedEncodingLength n := Codec.length_toBytes _ _
  have hvalue : Codec.ofBytes (numberCode n) = code (signedEncodingLength n) n := by
    rw [numberCode, Codec.ofBytes_toBytes, Nat.mod_eq_of_lt (code_lt h)]
  have htake : (numberCode n ++ rest).take (signedEncodingLength n) = numberCode n := by
    rw [← hcode, List.take_left]
  generalize signedEncodingLength n = len at *
  have hle : len ≤ (numberCode n ++ rest).length := by
    rw [List.length_append]
    omega
  have hrange : InRange len (code len n) := by
    have hlt := magnitude_lt hn
    obtain ⟨hpos, hneg⟩ := code_bounds h
    unfold magnitude at hlt
    rcases Int.lt_or_le n 0 with hsign | hsign
    · obtain ⟨hlower, hupper⟩ := hneg hsign
      refine Or.inr ⟨hlower, hupper, ?_⟩
      rw [if_pos hsign] at hlt
      rw [code, if_pos hsign]
      omega
    · obtain ⟨hlower, hupper⟩ := hpos hsign
      refine Or.inl ⟨hlower, hupper, ?_⟩
      rw [if_neg (by omega)] at hlt
      rw [code, if_neg (by omega)]
      omega
  have hsign : code len n < 128 ^ len ↔ n < 0 := by
    obtain ⟨hpos, hneg⟩ := code_bounds h
    refine ⟨fun hlt => ?_, fun hsign => (hneg hsign).2⟩
    by_contra hsign
    have hlower := (hpos (by omega)).1
    have htwo := two_mul_pow_le h.pos
    have hsum := header_add len
    omega
  have hheader : HeaderOf (numberCode n ++ rest) len ∧
      ((byteAt (numberCode n ++ rest) 0).toNat < 128 ↔ n < 0) := by
    have hpos := h.pos
    have hmax := h.le
    generalize numberCode n ++ rest = src at htake hle ⊢
    rw [← hsign, ← hvalue, ← htake]
    rw [← hvalue, ← htake] at hrange
    unfold HeaderOf seen
    dsimp only
    by_cases hshort : len ≤ 7
    · obtain ⟨t, ht, hbytes⟩ := ofBytes_take_one hpos hle
      rw [hbytes] at hrange ⊢
      rw [if_pos hshort]
      exact short_header hpos hshort ht (UInt8.toNat_lt _) hrange
    · obtain ⟨t, ht, hbytes⟩ := ofBytes_take_three (by omega) hle
      rw [hbytes] at hrange ⊢
      rw [if_neg hshort]
      exact long_header (by omega) hmax ht (UInt8.toNat_lt _) (UInt8.toNat_lt _) (UInt8.toNat_lt _)
        hrange
  refine ⟨UInt64.ofNat ((if n < 0 then (2 ^ 64 - 1) * 256 ^ len else 0) + code len n), ?_, ?_⟩
  · refine (lengthAndRaw_iff _ _ _).2 ⟨h.pos, hle, hheader.1, ?_⟩
    rw [htake, hvalue, UInt64.toNat_ofNat']
    simp only [hheader.2]
  · have hmask : (kLengthToMask.getD len 0).toNat = header len % 2 ^ 64 := by
      have hpos := h.pos
      have hmax := h.le
      interval_cases len <;> decide
    have hxor := xor_header h 64
    have hraw : (UInt64.ofNat ((if n < 0 then (2 ^ 64 - 1) * 256 ^ len else 0) + code len n)
        ^^^ kLengthToMask.getD len 0).toNat = (n % 2 ^ 64).toNat := by
      rw [UInt64.toNat_xor, UInt64.toNat_ofNat', hmask, ← Nat.xor_mod_two_pow, hxor]
      have hdvd : (2 ^ 64 : Int) ∣ 2 ^ 64 * 256 ^ len := Dvd.intro _ rfl
      zify
      rw [Int.toNat_of_nonneg (Int.emod_nonneg _ (by positivity)),
        Int.toNat_of_nonneg (Int.emod_nonneg _ (by positivity)), Int.emod_emod_of_dvd _ hdvd]
    obtain ⟨hlo, hhi⟩ := hn
    rw [toInt64, hraw]
    split <;> omega

/-- **A number is read off the front of a key exactly where its code stands there.** -/
theorem readSignedNumIncreasing_iff (src rest : ByteString) (n : Int) :
    readSignedNumIncreasing src = .ok (some (n, rest)) ↔
      IsInt64 n ∧ src = numberCode n ++ rest := by
  constructor
  · intro h
    unfold readSignedNumIncreasing at h
    split at h
    · exact absurd h (by simp [pure, Except.pure])
    · split at h
      · exact absurd h (by simp [pure, Except.pure])
      · next len x hraw =>
          simp only [bind, Except.bind] at h
          by_cases hlen : len = signedEncodingLength (toInt64 (x ^^^ kLengthToMask.getD len 0))
          · rw [hardAssert_of hlen] at h
            obtain ⟨rfl, rfl⟩ := Prod.mk.inj (Option.some.inj (Except.ok.inj h))
            have hn : IsInt64 (toInt64 (x ^^^ kLengthToMask.getD len 0)) := by
              have := (x ^^^ kLengthToMask.getD len 0).toNat_lt
              unfold toInt64 IsInt64
              split <;> constructor <;> omega
            refine ⟨hn, ?_⟩
            obtain ⟨x', hraw', hvalue⟩ := lengthAndRaw_numberCode hn []
            rw [← hlen] at hraw' hvalue
            -- one number of one length has one raw result, and that has one code
            have hx : x' = x := by
              have hinj : ∀ y y' : UInt64, toInt64 y = toInt64 y' → y = y' := fun y y' heq => by
                have := y.toNat_lt
                have := y'.toNat_lt
                unfold toInt64 at heq
                refine UInt64.toNat_inj.1 ?_
                split_ifs at heq <;> omega
              exact (UInt64.xor_left_inj _).1 (hinj _ _ hvalue)
            rw [hx] at hraw'
            have htake := take_eq_of_raw hraw hraw'
            have hcode : (numberCode (toInt64 (x ^^^ kLengthToMask.getD len 0)) ++ []).take len
                = numberCode (toInt64 (x ^^^ kLengthToMask.getD len 0)) := by
              rw [List.append_nil]
              refine List.take_of_length_le ?_
              rw [numberCode, Codec.length_toBytes, ← hlen]
            rw [hcode] at htake
            rw [← htake, List.take_append_drop]
          · rw [hardAssert, if_neg hlen] at h
            exact absurd h (by simp)
  · rintro ⟨hn, rfl⟩
    obtain ⟨x, hraw, hvalue⟩ := lengthAndRaw_numberCode hn rest
    have hlength : (numberCode n).length = signedEncodingLength n := Codec.length_toBytes _ _
    have hne : numberCode n ++ rest ≠ [] := by
      have := (hasLength_signedEncodingLength hn).pos
      intro hnil
      rw [(List.append_eq_nil_iff.1 hnil).1] at hlength
      simp only [List.length_nil] at hlength
      omega
    rw [readSignedNumIncreasing, if_neg hne, hraw]
    simp only [bind, Except.bind, pure, Except.pure]
    rw [hvalue, hardAssert_of rfl]
    simp only
    rw [← hlength, List.drop_left]

end Harusali.Firestore.OrderedCode
