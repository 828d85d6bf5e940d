import Harusali.Client.MutationQueue
import Harusali.Codec.WordTest

set_option autoImplicit false

/-! # Strings in keys

LevelDB sorts its rows by key, bytewise, and keys are made of `OrderedCode` fields. A string is
written with its bytes 0 and 255 escaped and closed with a separator, and the code looks for these
bytes a machine word at a time. Here the scan is shown to find what looking at one byte after the
other finds, and the reader to accept exactly what the writer writes. -/

namespace Harusali.Firestore.OrderedCode

def kEscape1 : UInt8 := 0x00
def kNullCharacter : UInt8 := 0xff
def kSeparator : UInt8 := 0x01
def kEscape2 : UInt8 := 0xff
def kInfinity : UInt8 := 0xff
def kFFCharacter : UInt8 := 0x00

def isSpecialByte (c : UInt8) : Bool := c + 1 < 2

/-! ## Looking for the next special byte -/

/-- `UNALIGNED_LOAD32` on a little-endian processor. -/
def unalignedLoad32 (p : ByteString) : UInt32 :=
  UInt32.ofNat (Codec.ofBytesLE (p.take 4))

/-- `UNALIGNED_LOAD64` on a little-endian processor. -/
def unalignedLoad64 (p : ByteString) : UInt64 :=
  UInt64.ofNat (Codec.ofBytesLE (p.take 8))

/-- `p[i]`. -/
def byteAt (p : ByteString) (i : Nat) : UInt8 := p.getD i 0

@[simp] theorem byteAt_zero (b : UInt8) (p : ByteString) : byteAt (b :: p) 0 = b := rfl

@[simp] theorem byteAt_succ (b : UInt8) (p : ByteString) (i : Nat) :
    byteAt (b :: p) (i + 1) = byteAt p i := rfl

def advanceIfNoSpecialBytes (v32 : UInt32) (p : ByteString) : Except String Nat := do
  hardAssert (unalignedLoad32 p = v32) "UNALIGNED_LOAD32(p) == v_32"
  if (v32 - 0x01010101) &&& ~~~(v32 + 0x01010101) &&& 0x80808080 ≠ 0 then
    hardAssert (isSpecialByte (byteAt p 0) ∨ isSpecialByte (byteAt p 1) ∨
      isSpecialByte (byteAt p 2) ∨ isSpecialByte (byteAt p 3))
      "IsSpecialByte(p[0]) || IsSpecialByte(p[1]) || IsSpecialByte(p[2]) || IsSpecialByte(p[3])"
    pure 0
  else
    hardAssert (¬ isSpecialByte (byteAt p 0)) "!IsSpecialByte(p[0])"
    hardAssert (¬ isSpecialByte (byteAt p 1)) "!IsSpecialByte(p[1])"
    hardAssert (¬ isSpecialByte (byteAt p 2)) "!IsSpecialByte(p[2])"
    hardAssert (¬ isSpecialByte (byteAt p 3)) "!IsSpecialByte(p[3])"
    pure 4

def hasZeroOr255Byte (v : UInt64) : Bool :=
  (v - 0x0101010101010101) &&& ~~~(v + 0x0101010101010101) &&& 0x8080808080808080 ≠ 0

/-- The special byte of the eight at `p`, of which one is. -/
def findInWord (v : UInt64) (p : ByteString) : Except String Nat := do
  let n ← advanceIfNoSpecialBytes v.toUInt32 p
  let p := p.drop n
  if isSpecialByte (byteAt p 0) then
    pure n
  else if isSpecialByte (byteAt p 1) then
    pure (n + 1)
  else if isSpecialByte (byteAt p 2) then
    pure (n + 2)
  else
    hardAssert (isSpecialByte (byteAt p 3)) "IsSpecialByte(p[3])"
    pure (n + 3)

/-- What is left when fewer than eight bytes are. -/
def skipInTail (p : ByteString) : Except String Nat := do
  let n ← if 4 ≤ p.length then advanceIfNoSpecialBytes (unalignedLoad32 p) p else pure 0
  pure (n + (p.drop n).findIdx isSpecialByte)

/-- `SkipToNextSpecialByte` on the bytes between `start` and `limit`: how far it goes. -/
def skipToNextSpecialByte : ByteString → Except String Nat
  | b₀ :: b₁ :: b₂ :: b₃ :: b₄ :: b₅ :: b₆ :: b₇ :: rest =>
      let p := [b₀, b₁, b₂, b₃, b₄, b₅, b₆, b₇]
      if hasZeroOr255Byte (unalignedLoad64 p) then
        findInWord (unalignedLoad64 p) p
      else
        (8 + ·) <$> skipToNextSpecialByte rest
  | p => skipInTail p

/-! ### The scan finds the first special byte -/

theorem isSpecialByte_iff (c : UInt8) : isSpecialByte c = true ↔ Codec.IsExtreme c := by
  have hc := c.toNat_lt
  rw [isSpecialByte, decide_eq_true_eq, UInt8.lt_iff_toNat_lt, UInt8.toNat_add,
    Codec.isExtreme_iff]
  change (c.toNat + 1) % 256 < 2 ↔ _
  omega

/-- The test of the first 32 bits looks at the first four bytes. -/
theorem test32_iff {p : ByteString} (hp : 4 ≤ p.length) :
    (unalignedLoad32 p - 0x01010101) &&& ~~~(unalignedLoad32 p + 0x01010101) &&& 0x80808080 ≠ 0 ↔
      ∃ b ∈ p.take 4, isSpecialByte b = true := by
  have hlength : (p.take 4).length = 4 := by simpa using hp
  have hlt := Codec.ofBytesLE_lt (p.take 4)
  have htop := Codec.topBits_iff (p.take 4)
  rw [hlength] at hlt htop
  have hload : (unalignedLoad32 p).toNat = Codec.ofBytesLE (p.take 4) := by
    rw [unalignedLoad32, UInt32.toNat_ofNat']
    exact Nat.mod_eq_of_lt hlt
  simp only [isSpecialByte_iff]
  rw [← htop, ← not_iff_not, not_not, ← UInt32.toNat_inj, UInt32.toNat_and, UInt32.toNat_and,
    UInt32.toNat_not, UInt32.toNat_sub, UInt32.toNat_add, hload, Bool.not_eq_true]
  exact Codec.and_eq_zero_iff (n := 4) (Nat.mod_lt _ (by norm_num)) (Nat.mod_lt _ (by norm_num))

theorem hasZeroOr255Byte_iff {p : ByteString} (hp : p.length = 8) :
    hasZeroOr255Byte (unalignedLoad64 p) = true ↔ ∃ b ∈ p, isSpecialByte b = true := by
  have htake : p.take 8 = p := List.take_of_length_le (by omega)
  have hlt := Codec.ofBytesLE_lt p
  have htop := Codec.topBits_iff p
  rw [hp] at hlt htop
  have hload : (unalignedLoad64 p).toNat = Codec.ofBytesLE p := by
    rw [unalignedLoad64, UInt64.toNat_ofNat', htake]
    exact Nat.mod_eq_of_lt hlt
  simp only [isSpecialByte_iff]
  rw [← htop, hasZeroOr255Byte, decide_eq_true_eq, ← not_iff_not, not_not, ← UInt64.toNat_inj,
    UInt64.toNat_and, UInt64.toNat_and, UInt64.toNat_not, UInt64.toNat_sub, UInt64.toNat_add,
    hload, Bool.not_eq_true]
  exact Codec.and_eq_zero_iff (n := 8) (Nat.mod_lt _ (by norm_num)) (Nat.mod_lt _ (by norm_num))

theorem exists_take_four {p : ByteString} (hp : 4 ≤ p.length) :
    (∃ b ∈ p.take 4, isSpecialByte b = true) ↔
      isSpecialByte (byteAt p 0) ∨ isSpecialByte (byteAt p 1) ∨ isSpecialByte (byteAt p 2) ∨
        isSpecialByte (byteAt p 3) := by
  match p, hp with
  | b₀ :: b₁ :: b₂ :: b₃ :: rest, _ => simp

theorem advanceIfNoSpecialBytes_eq {p : ByteString} (hp : 4 ≤ p.length) :
    advanceIfNoSpecialBytes (unalignedLoad32 p) p
      = .ok (if ∃ b ∈ p.take 4, isSpecialByte b = true then 0 else 4) := by
  have htest := test32_iff hp
  rw [advanceIfNoSpecialBytes, hardAssert_of rfl]
  by_cases hspecial : ∃ b ∈ p.take 4, isSpecialByte b = true
  · have hany := (exists_take_four hp).1 hspecial
    simp only [bind, Except.bind, pure, Except.pure, if_pos (htest.2 hspecial), if_pos hspecial,
      hardAssert_of hany]
  · have hnone := mt (exists_take_four hp).2 hspecial
    simp only [not_or] at hnone
    obtain ⟨h₀, h₁, h₂, h₃⟩ := hnone
    simp only [bind, Except.bind, pure, Except.pure, if_neg (mt htest.1 hspecial), if_neg hspecial,
      hardAssert_of h₀, hardAssert_of h₁, hardAssert_of h₂, hardAssert_of h₃]

/-- The first four bytes of a word are its low half. -/
theorem toUInt32_unalignedLoad64 (p : ByteString) :
    (unalignedLoad64 p).toUInt32 = unalignedLoad32 p := by
  have hsplit : Codec.ofBytesLE (p.take 8) % 2 ^ 32 = Codec.ofBytesLE (p.take 4) % 2 ^ 32 := by
    match p with
    | [] | [_] | [_, _] | [_, _, _] => rfl
    | b₀ :: b₁ :: b₂ :: b₃ :: rest =>
        have h₀ := b₀.toNat_lt
        have h₁ := b₁.toNat_lt
        have h₂ := b₂.toNat_lt
        have h₃ := b₃.toNat_lt
        simp only [List.take_succ_cons, Codec.ofBytesLE_cons]
        omega
  refine UInt32.toNat_inj.1 ?_
  rw [unalignedLoad64, unalignedLoad32, UInt64.toNat_toUInt32, UInt64.toNat_ofNat',
    UInt32.toNat_ofNat', Nat.mod_mod_of_dvd _ (by norm_num)]
  exact hsplit

theorem findInWord_eq {p : ByteString} (hp : p.length = 8)
    (hspecial : ∃ b ∈ p, isSpecialByte b = true) :
    findInWord (unalignedLoad64 p) p = .ok (p.findIdx isSpecialByte) := by
  obtain ⟨b₀, b₁, b₂, b₃, b₄, b₅, b₆, b₇, rfl⟩ : ∃ b₀ b₁ b₂ b₃ b₄ b₅ b₆ b₇,
      p = [b₀, b₁, b₂, b₃, b₄, b₅, b₆, b₇] := by
    match p, hp with
    | [b₀, b₁, b₂, b₃, b₄, b₅, b₆, b₇], _ => exact ⟨b₀, b₁, b₂, b₃, b₄, b₅, b₆, b₇, rfl⟩
  rw [findInWord, toUInt32_unalignedLoad64, advanceIfNoSpecialBytes_eq (by simp)]
  simp only [bind, Except.bind, pure, Except.pure, List.findIdx_cons]
  by_cases hfirst : ∃ b ∈ [b₀, b₁, b₂, b₃, b₄, b₅, b₆, b₇].take 4, isSpecialByte b = true
  · have hany : isSpecialByte b₀ ∨ isSpecialByte b₁ ∨ isSpecialByte b₂ ∨ isSpecialByte b₃ := by
      simpa using hfirst
    simp only [if_pos hfirst, List.drop_zero, byteAt_zero, byteAt_succ]
    cases h₀ : isSpecialByte b₀ <;> cases h₁ : isSpecialByte b₁ <;> cases h₂ : isSpecialByte b₂ <;>
      simp_all
  · have hnone : isSpecialByte b₀ = false ∧ isSpecialByte b₁ = false ∧ isSpecialByte b₂ = false ∧
        isSpecialByte b₃ = false := by
      simpa using hfirst
    obtain ⟨h₀, h₁, h₂, h₃⟩ := hnone
    have hany : isSpecialByte b₄ ∨ isSpecialByte b₅ ∨ isSpecialByte b₆ ∨ isSpecialByte b₇ := by
      simpa [h₀, h₁, h₂, h₃] using hspecial
    simp only [if_neg hfirst, List.drop_succ_cons, List.drop_zero, byteAt_zero, byteAt_succ, h₀, h₁,
      h₂, h₃]
    cases h₄ : isSpecialByte b₄ <;> cases h₅ : isSpecialByte b₅ <;> cases h₆ : isSpecialByte b₆ <;>
      simp_all

theorem skipInTail_eq (p : ByteString) : skipInTail p = .ok (p.findIdx isSpecialByte) := by
  unfold skipInTail
  by_cases hp : 4 ≤ p.length
  · rw [if_pos hp, advanceIfNoSpecialBytes_eq hp]
    simp only [bind, Except.bind, pure, Except.pure, Except.ok.injEq]
    by_cases hspecial : ∃ b ∈ p.take 4, isSpecialByte b = true
    · rw [if_pos hspecial]
      simp
    -- none of the first four is special, so the search may start behind them
    · rw [if_neg hspecial]
      have hlength : (p.take 4).length = 4 := by simpa using hp
      have hnone : (p.take 4).findIdx isSpecialByte = 4 := by
        rw [List.findIdx_eq_length.2, hlength]
        simpa using hspecial
      conv_rhs => rw [← List.take_append_drop 4 p, List.findIdx_append, hnone, hlength]
      simp [Nat.add_comm]
  · rw [if_neg hp]
    simp only [bind, Except.bind, pure, Except.pure, Nat.zero_add, List.drop_zero]

/-- **The scan finds what looking at one byte after the other finds**, and none of its assertions
    fails. -/
theorem skipToNextSpecialByte_eq (p : ByteString) :
    skipToNextSpecialByte p = .ok (p.findIdx isSpecialByte) := by
  fun_induction skipToNextSpecialByte p with
  | case1 b₀ b₁ b₂ b₃ b₄ b₅ b₆ b₇ rest p htest =>
      have hspecial := (hasZeroOr255Byte_iff (p := p) rfl).1 htest
      have hlt : p.findIdx isSpecialByte < p.length := List.findIdx_lt_length.2 hspecial
      rw [findInWord_eq rfl hspecial]
      have happend := @List.findIdx_append _ isSpecialByte p rest
      rw [if_pos hlt] at happend
      exact congrArg Except.ok happend.symm
  | case2 b₀ b₁ b₂ b₃ b₄ b₅ b₆ b₇ rest p htest ih =>
      have hnone : ¬ ∃ b ∈ p, isSpecialByte b = true := fun hspecial =>
        htest ((hasZeroOr255Byte_iff (p := p) rfl).2 hspecial)
      have hge : ¬ p.findIdx isSpecialByte < p.length := fun hlt =>
        hnone (List.findIdx_lt_length.1 hlt)
      rw [ih]
      have happend := @List.findIdx_append _ isSpecialByte p rest
      rw [if_neg hge, Nat.add_comm] at happend
      exact congrArg Except.ok happend.symm
  | case3 p _ => exact skipInTail_eq p

/-! ## Writing a string -/

/-- The loop of `EncodeStringFragment` from `copy_start` on. Every round but the last takes a byte
    of `s`, which is what `fuel` counts. -/
def encodeStringFragmentLoop : Nat → ByteString → ByteString → Except String ByteString
  | 0, dest, _ => pure dest
  | fuel + 1, dest, s => do
      let n ← skipToNextSpecialByte s
      match s.drop n with
      | [] => pure (dest ++ s.take n)
      | c :: rest =>
          hardAssert (isSpecialByte c) "IsSpecialByte(c)"
          if c = kEscape1 then
            encodeStringFragmentLoop fuel (dest ++ s.take n ++ [kEscape1, kNullCharacter]) rest
          else
            hardAssert (c = kEscape2) "c == kEscape2"
            encodeStringFragmentLoop fuel (dest ++ s.take n ++ [kEscape2, kFFCharacter]) rest

def encodeStringFragment (dest s : ByteString) : Except String ByteString :=
  encodeStringFragmentLoop (s.length + 1) dest s

/-- `WriteString`. -/
def writeString (dest s : ByteString) : Except String ByteString := do
  let dest ← encodeStringFragment dest s
  pure (dest ++ [kEscape1, kSeparator])

/-- What one byte of a string is written as. -/
def escape (c : UInt8) : ByteString :=
  if c = kEscape1 then [kEscape1, kNullCharacter]
  else if c = kEscape2 then [kEscape2, kFFCharacter]
  else [c]

/-- What a string is written as. -/
def stringCode (s : ByteString) : ByteString :=
  s.flatMap escape ++ [kEscape1, kSeparator]

theorem isSpecialByte_cases {c : UInt8} (h : isSpecialByte c = true) :
    c = kEscape1 ∨ c = kEscape2 :=
  (isSpecialByte_iff c).1 h

theorem escape_of_not_special {c : UInt8} (h : isSpecialByte c = false) : escape c = [c] := by
  have hne : ¬ Codec.IsExtreme c := fun hextreme => by
    rw [(isSpecialByte_iff c).2 hextreme] at h
    exact absurd h (by simp)
  have hne₁ : c ≠ kEscape1 := fun heq => hne (Or.inl heq)
  have hne₂ : c ≠ kEscape2 := fun heq => hne (Or.inr heq)
  rw [escape, if_neg hne₁, if_neg hne₂]

theorem flatMap_escape_of_not_special {s : ByteString} (h : ∀ c ∈ s, isSpecialByte c = false) :
    s.flatMap escape = s := by
  induction s with
  | nil => rfl
  | cons c s ih =>
      rw [List.flatMap_cons, escape_of_not_special (h c (List.mem_cons_self ..)),
        ih fun b hb => h b (List.mem_cons_of_mem _ hb)]
      rfl

/-- The bytes the scan passes over are not special. -/
theorem not_special_of_mem_take {s : ByteString} {c : UInt8}
    (h : c ∈ s.take (s.findIdx isSpecialByte)) : isSpecialByte c = false := by
  obtain ⟨i, hi, rfl⟩ := List.mem_iff_getElem.1 h
  rw [List.length_take] at hi
  rw [List.getElem_take]
  exact List.not_of_lt_findIdx (by omega)

/-- The byte the scan stops at is. -/
theorem special_of_drop {s rest : ByteString} {c : UInt8}
    (h : s.drop (s.findIdx isSpecialByte) = c :: rest) : isSpecialByte c = true := by
  have hlt : s.findIdx isSpecialByte < s.length := by
    by_contra hge
    rw [List.drop_of_length_le (by omega)] at h
    exact absurd h (by simp)
  rw [List.drop_eq_getElem_cons hlt] at h
  rw [← (List.cons.inj h).1]
  exact List.findIdx_getElem

theorem encodeStringFragmentLoop_eq {fuel : Nat} {dest s : ByteString} (hfuel : s.length < fuel) :
    encodeStringFragmentLoop fuel dest s = .ok (dest ++ s.flatMap escape) := by
  induction fuel generalizing dest s with
  | zero => exact absurd hfuel (by omega)
  | succ fuel ih =>
      have htake := flatMap_escape_of_not_special fun c => not_special_of_mem_take (s := s) (c := c)
      have hsplit := List.take_append_drop (s.findIdx isSpecialByte) s
      rw [encodeStringFragmentLoop, skipToNextSpecialByte_eq]
      simp only [bind, Except.bind]
      cases hdrop : s.drop (s.findIdx isSpecialByte) with
      | nil =>
          rw [hdrop, List.append_nil] at hsplit
          rw [hsplit] at htake ⊢
          rw [htake]
          rfl
      | cons c rest =>
          have hspecial := special_of_drop hdrop
          have hrest : rest.length < fuel := by
            have hlength := congrArg List.length hsplit
            rw [hdrop, List.length_append, List.length_cons] at hlength
            omega
          have hcode : s.flatMap escape
              = s.take (s.findIdx isSpecialByte) ++ (escape c ++ rest.flatMap escape) := by
            conv_lhs => rw [← hsplit, hdrop, List.flatMap_append, htake, List.flatMap_cons]
          simp only [hardAssert_of hspecial]
          rcases isSpecialByte_cases hspecial with rfl | rfl
          · rw [if_pos rfl, ih hrest, hcode]
            simp [escape]
          · rw [if_neg (by decide), hardAssert_of rfl]
            simp only [ih hrest, hcode]
            simp [escape, kEscape1, kEscape2]

theorem writeString_eq (dest s : ByteString) : writeString dest s = .ok (dest ++ stringCode s) := by
  rw [writeString, encodeStringFragment, encodeStringFragmentLoop_eq (Nat.lt_succ_self _)]
  simp [bind, Except.bind, pure, Except.pure, stringCode]

/-! ## Reading a string -/

/-- The loop of `ReadStringInternal` from `copy_start` on. The scan ends a byte before the string
    does, so that a byte follows the special byte it finds. -/
def readStringLoop : Nat → ByteString → ByteString →
    Except String (Option (ByteString × ByteString))
  | 0, _, _ => pure none
  | fuel + 1, src, result => do
      let n ← skipToNextSpecialByte src.dropLast
      match src.drop n with
      | c :: next :: rest =>
          hardAssert (isSpecialByte c) "IsSpecialByte(c)"
          if c = kEscape1 then
            if next = kSeparator then
              pure (some (result ++ src.take n, rest))
            else if next = kNullCharacter then
              readStringLoop fuel rest (result ++ src.take n ++ [0x00])
            else
              pure none
          else
            hardAssert (c = kEscape2) "c == kEscape2"
            if next = kFFCharacter then
              readStringLoop fuel rest (result ++ src.take n ++ [0xff])
            else
              pure none
      | _ => pure none

/-- `ReadString`: the string at the front of `src` and what follows it. -/
def readString (src : ByteString) : Except String (Option (ByteString × ByteString)) :=
  readStringLoop (src.length + 1) src []

/-- `ReadString`, one byte after the other. -/
def readEscaped : ByteString → Option (ByteString × ByteString)
  | [] => none
  | [_] => none
  | c :: next :: rest =>
      if c = kEscape1 then
        if next = kSeparator then some ([], rest)
        else if next = kNullCharacter then
          (readEscaped rest).map fun read => (c :: read.1, read.2)
        else none
      else if c = kEscape2 then
        if next = kFFCharacter then
          (readEscaped rest).map fun read => (c :: read.1, read.2)
        else none
      else (readEscaped (next :: rest)).map fun read => (c :: read.1, read.2)

theorem readEscaped_append {u : ByteString} (hu : ∀ c ∈ u, isSpecialByte c = false)
    (v : ByteString) :
    readEscaped (u ++ v) = (readEscaped v).map fun read => (u ++ read.1, read.2) := by
  induction u with
  | nil => simp
  | cons c u ih =>
      have hc := escape_of_not_special (hu c (List.mem_cons_self ..))
      have hne₁ : c ≠ kEscape1 := fun heq => by
        rw [heq] at hc
        exact absurd hc (by decide)
      have hne₂ : c ≠ kEscape2 := fun heq => by
        rw [heq] at hc
        exact absurd hc (by decide)
      have ih := ih fun b hb => hu b (List.mem_cons_of_mem _ hb)
      cases huv : u ++ v with
      | nil =>
          obtain ⟨rfl, rfl⟩ := List.append_eq_nil_iff.1 huv
          rfl
      | cons next rest =>
          rw [huv] at ih
          rw [List.cons_append, huv, readEscaped, if_neg hne₁, if_neg hne₂, ih]
          cases readEscaped v <;> rfl

theorem readStringLoop_eq {fuel : Nat} {src result : ByteString} (hfuel : src.length < fuel) :
    readStringLoop fuel src result
      = .ok ((readEscaped src).map fun read => (result ++ read.1, read.2)) := by
  induction fuel generalizing src result with
  | zero => exact absurd hfuel (by omega)
  | succ fuel ih =>
      have hle : src.dropLast.findIdx isSpecialByte ≤ src.length - 1 := by
        have hdrop : src.dropLast.findIdx isSpecialByte ≤ src.dropLast.length :=
          List.findIdx_le_length
        rwa [List.length_dropLast] at hdrop
      have hplain : ∀ c ∈ src.take (src.dropLast.findIdx isSpecialByte),
          isSpecialByte c = false := by
        intro c hc
        refine not_special_of_mem_take (s := src.dropLast) ?_
        rwa [List.dropLast_eq_take, List.take_take, Nat.min_eq_left (by
          rwa [← List.dropLast_eq_take]), ← List.dropLast_eq_take]
      have hread := readEscaped_append hplain (src.drop (src.dropLast.findIdx isSpecialByte))
      rw [List.take_append_drop] at hread
      rw [readStringLoop, skipToNextSpecialByte_eq]
      simp only [bind, Except.bind]
      match hdrop : src.drop (src.dropLast.findIdx isSpecialByte) with
      | [] =>
          rw [hdrop] at hread
          simp only [hread, readEscaped]
          rfl
      | [_] =>
          rw [hdrop] at hread
          simp only [hread, readEscaped]
          rfl
      | c :: next :: rest =>
          have hlength := congrArg List.length hdrop
          rw [List.length_drop, List.length_cons, List.length_cons] at hlength
          have hspecial : isSpecialByte c = true := by
            have hlt : src.dropLast.findIdx isSpecialByte < src.dropLast.length := by
              rw [List.length_dropLast]
              omega
            have hfound := List.findIdx_getElem (w := hlt)
            rw [List.getElem_dropLast] at hfound
            rw [List.drop_eq_getElem_cons (by omega)] at hdrop
            rwa [(List.cons.inj hdrop).1] at hfound
          have hrest : rest.length < fuel := by omega
          rw [hread, hdrop]
          simp only [hardAssert_of hspecial]
          rcases isSpecialByte_cases hspecial with rfl | rfl
          · rw [if_pos rfl, readEscaped, if_pos rfl]
            by_cases hsep : next = kSeparator
            · rw [if_pos hsep, if_pos hsep]
              simp [pure, Except.pure]
            · rw [if_neg hsep, if_neg hsep]
              by_cases hnull : next = kNullCharacter
              · rw [if_pos hnull, if_pos hnull, ih hrest]
                cases readEscaped rest <;> simp [kEscape1]
              · rw [if_neg hnull, if_neg hnull]
                rfl
          · have hne : kEscape2 ≠ kEscape1 := by decide
            rw [if_neg hne, hardAssert_of rfl, readEscaped, if_neg hne, if_pos rfl]
            by_cases hff : next = kFFCharacter
            · rw [if_pos hff]
              simp only [if_pos hff, ih hrest]
              cases readEscaped rest <;> simp [kEscape2]
            · rw [if_neg hff]
              simp only [if_neg hff]
              rfl

theorem readString_eq (src : ByteString) : readString src = .ok (readEscaped src) := by
  rw [readString, readStringLoop_eq (Nat.lt_succ_self _)]
  cases readEscaped src <;> rfl

theorem stringCode_cons (c : UInt8) (s : ByteString) :
    stringCode (c :: s) = escape c ++ stringCode s := by
  simp [stringCode]

theorem readEscaped_stringCode (s rest : ByteString) :
    readEscaped (stringCode s ++ rest) = some (s, rest) := by
  induction s with
  | nil => rfl
  | cons c s ih =>
      rw [stringCode_cons, List.append_assoc]
      by_cases hspecial : isSpecialByte c = true
      · rcases isSpecialByte_cases hspecial with rfl | rfl
        · rw [escape, if_pos rfl, List.cons_append, List.cons_append, List.nil_append, readEscaped,
            if_pos rfl, if_neg (by decide), if_pos rfl, ih]
          rfl
        · have hne : kEscape2 ≠ kEscape1 := by decide
          rw [escape, if_neg hne, if_pos rfl, List.cons_append, List.cons_append, List.nil_append,
            readEscaped, if_neg hne, if_pos rfl, if_pos rfl, ih]
          rfl
      · rw [escape_of_not_special (by simpa using hspecial), readEscaped_append (by
          simpa using hspecial), ih]
        rfl

theorem eq_stringCode_of_readEscaped {src s rest : ByteString}
    (h : readEscaped src = some (s, rest)) : src = stringCode s ++ rest := by
  fun_induction readEscaped src generalizing s with
  | case1 | case2 => exact absurd h (by simp)
  | case3 rest' =>
      obtain ⟨rfl, rfl⟩ := Prod.mk.inj (Option.some.inj h)
      rfl
  | case4 rest' hne ih =>
      obtain ⟨⟨s', rest''⟩, hread, heq⟩ := Option.map_eq_some_iff.1 h
      obtain ⟨rfl, rfl⟩ := Prod.mk.inj heq
      rw [ih hread]
      rfl
  | case5 | case7 => exact absurd h (by simp)
  | case6 rest' hne ih =>
      obtain ⟨⟨s', rest''⟩, hread, heq⟩ := Option.map_eq_some_iff.1 h
      obtain ⟨rfl, rfl⟩ := Prod.mk.inj heq
      rw [ih hread]
      rfl
  | case8 c next rest' hne₁ hne₂ ih =>
      obtain ⟨⟨s', rest''⟩, hread, heq⟩ := Option.map_eq_some_iff.1 h
      obtain ⟨rfl, rfl⟩ := Prod.mk.inj heq
      rw [ih hread, stringCode_cons, escape, if_neg hne₁, if_neg hne₂]
      rfl

/-- **A string is read off the front of a key exactly where its code stands there.** The reader
    accepts nothing else, and no assertion of it fails. -/
theorem readString_iff (src s rest : ByteString) :
    readString src = .ok (some (s, rest)) ↔ src = stringCode s ++ rest := by
  rw [readString_eq, Except.ok.injEq]
  refine ⟨eq_stringCode_of_readEscaped, fun h => ?_⟩
  rw [h]
  exact readEscaped_stringCode s rest

/-! ## The order of strings -/

theorem escape_eq_cons (c : UInt8) : ∃ tail, escape c = c :: tail := by
  unfold escape
  split_ifs with h₁ h₂
  · exact ⟨_, by rw [h₁]⟩
  · exact ⟨_, by rw [h₂]⟩
  · exact ⟨[], rfl⟩

/-- The code of a string orders it among all strings, also where one begins the other. -/
theorem stringCode_monotone : Codec.Monotone stringCode := by
  intro s s' hlt
  induction s generalizing s' with
  | nil =>
      cases s' with
      | nil => simp at hlt
      | cons c s' =>
          rw [stringCode_cons, escape]
          split_ifs with h₁ h₂
          · exact Or.inr ⟨rfl, Or.inl (by decide)⟩
          · exact Or.inl (by decide)
          · refine Or.inl (lt_of_le_of_ne ?_ (Ne.symm h₁))
            exact UInt8.le_iff_toNat_le.2 (Nat.zero_le _)
  | cons b s ih =>
      cases s' with
      | nil => exact absurd hlt (by simp)
      | cons c s' =>
          rw [stringCode_cons, stringCode_cons]
          rcases List.cons_lt_cons_iff.1 hlt with hbyte | ⟨rfl, hrest⟩
          · obtain ⟨tail, htail⟩ := escape_eq_cons b
            obtain ⟨tail', htail'⟩ := escape_eq_cons c
            rw [htail, htail']
            exact Or.inl hbyte
          · exact (ih s' hrest).append_left _

/-- **Every string has a code**, which `WriteString` appends and `ReadString` takes off again, with
    whatever follows it left over; no other string is read as this one. Codes stand in the order of
    their strings, whatever follows them. -/
theorem string_reads_back_in_order (s : ByteString) :
    ∃ code, (∀ dest, writeString dest s = .ok (dest ++ code)) ∧
      (∀ src rest, readString src = .ok (some (s, rest)) ↔ src = code ++ rest) ∧
      ∀ s' code', s < s' → writeString [] s' = .ok code' →
        ∀ rest rest', code ++ rest < code' ++ rest' := by
  refine ⟨stringCode s, fun dest => writeString_eq dest s, fun src rest => readString_iff src s rest,
    fun s' code' hlt hcode' rest rest' => ?_⟩
  obtain rfl := Except.ok.inj ((writeString_eq [] s').symm.trans hcode')
  exact ((stringCode_monotone s s' hlt).append rest rest').lt

end Harusali.Firestore.OrderedCode
