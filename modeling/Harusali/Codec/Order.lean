import Mathlib.Data.List.Lex
import Mathlib.Data.Prod.Lex

set_option autoImplicit false

/-! # Codes that keep an order

A store that sorts its keys as strings keeps the records of a type sorted if the type is encoded so
that smaller values have smaller codes. For codes that are written one after the other it takes
more: of two codes the smaller must already be smaller where they first differ, whatever follows
them (`Below`). Such codes are never prefixes of one another, and writing them in a row keeps the
lexicographic order of what is written. -/

namespace Codec

variable {α β : Type*}

/-! ## The order of bytes -/

instance linearOrderUInt8 : LinearOrder UInt8 where
  le_refl := UInt8.le_refl
  le_trans _ _ _ := UInt8.le_trans
  lt_iff_le_not_ge _ _ := by simp only [UInt8.le_iff_toNat_le, UInt8.lt_iff_toNat_lt]; omega
  le_antisymm _ _ := UInt8.le_antisymm
  le_total := UInt8.le_total
  toDecidableLE := inferInstance

/-! ## Smaller at the first difference -/

section Below

variable [LinearOrder β]

/-- The strings differ before either ends, and `x` is the smaller one there. -/
def Below : List β → List β → Prop
  | [], _ => False
  | _ :: _, [] => False
  | b :: x, c :: y => b < c ∨ (b = c ∧ Below x y)

theorem Below.append {x y : List β} (h : Below x y) (r r' : List β) :
    Below (x ++ r) (y ++ r') := by
  induction x generalizing y with
  | nil => exact absurd h id
  | cons b x ih =>
      cases y with
      | nil => exact absurd h id
      | cons c y =>
          rcases h with hlt | ⟨rfl, hrest⟩
          · exact Or.inl hlt
          · exact Or.inr ⟨rfl, ih hrest⟩

theorem Below.append_left {x y : List β} (h : Below x y) (l : List β) :
    Below (l ++ x) (l ++ y) := by
  induction l with
  | nil => exact h
  | cons b l ih => exact Or.inr ⟨rfl, ih⟩

theorem Below.lt {x y : List β} (h : Below x y) : x < y := by
  induction x generalizing y with
  | nil => exact absurd h id
  | cons b x ih =>
      cases y with
      | nil => exact absurd h id
      | cons c y =>
          rw [List.cons_lt_cons_iff]
          exact h.imp id fun ⟨heq, hrest⟩ => ⟨heq, ih hrest⟩

/-- Strings that differ so are not prefixes of one another. -/
theorem Below.not_prefix {x y : List β} (h : Below x y) : ¬ x <+: y := by
  rintro ⟨r, rfl⟩
  induction x with
  | nil => exact h
  | cons b x ih =>
      rcases h with hlt | ⟨-, hrest⟩
      · exact lt_irrefl b hlt
      · exact ih hrest

theorem Below.not_prefix_right {x y : List β} (h : Below x y) : ¬ y <+: x := by
  rintro ⟨r, rfl⟩
  induction y with
  | nil => exact absurd h (by cases r <;> exact id)
  | cons b y ih =>
      rcases h with hlt | ⟨-, hrest⟩
      · exact lt_irrefl b hlt
      · exact ih hrest

/-- A code that keeps the order of `α` where two codes first differ. -/
def Monotone [LT α] (encode : α → List β) : Prop :=
  ∀ a a', a < a' → Below (encode a) (encode a')

/-- As strings the codes stand in the order of the values. -/
theorem Monotone.code_lt_iff [LinearOrder α] {encode : α → List β} (h : Monotone encode) {a b : α} :
    encode a < encode b ↔ a < b := by
  have hstrict : StrictMono encode := fun a b hlt => (h a b hlt).lt
  exact hstrict.lt_iff_lt

theorem Monotone.injective [LinearOrder α] {encode : α → List β} (h : Monotone encode) :
    Function.Injective encode := by
  have hstrict : StrictMono encode := fun a b hlt => (h a b hlt).lt
  exact hstrict.injective

end Below

/-! ## Codes one after the other -/

section Sequence

variable {γ : Type*} [LinearOrder β]

theorem Monotone.append_left [LT α] {encode : α → List β} (h : Monotone encode) (l : List β) :
    Monotone fun a => l ++ encode a :=
  fun a a' hlt => (h a a' hlt).append_left l

theorem Monotone.append_right [LT α] {encode : α → List β} (h : Monotone encode) (r : List β) :
    Monotone fun a => encode a ++ r :=
  fun a a' hlt => (h a a' hlt).append r r

/-- Pairs written one component after the other keep their lexicographic order. -/
theorem Monotone.lex [LT α] [LT γ] {encode : α → List β} {encode' : γ → List β}
    (h : Monotone encode) (h' : Monotone encode') :
    Monotone fun p : α ×ₗ γ => encode (ofLex p).1 ++ encode' (ofLex p).2 := by
  rintro ⟨a, c⟩ ⟨a', c'⟩ hlt
  rcases Prod.Lex.toLex_lt_toLex.1 hlt with hfirst | ⟨heq, hsecond⟩
  · exact (h a a' hfirst).append _ _
  · obtain rfl : a = a' := heq
    exact (h' c c' hsecond).append_left _

/-- Lists written one element after the other keep their lexicographic order if what ends them is
    below each code of an element. -/
theorem Monotone.list [LT α] [LT γ] {encode : α → List β} {stop : γ → List β}
    (h : Monotone encode) (hstop : Monotone stop) (hbelow : ∀ c a, Below (stop c) (encode a)) :
    Monotone fun p : List α ×ₗ γ => (ofLex p).1.flatMap encode ++ stop (ofLex p).2 := by
  rintro ⟨l, c⟩ ⟨l', c'⟩ hlt
  change Below (l.flatMap encode ++ stop c) (l'.flatMap encode ++ stop c')
  induction l generalizing l' with
  | nil =>
      cases l' with
      | nil =>
          rcases Prod.Lex.toLex_lt_toLex.1 hlt with hnil | ⟨-, hsecond⟩
          · exact absurd hnil (List.not_lt_nil _)
          · exact hstop c c' hsecond
      | cons a' l' =>
          rw [List.flatMap_nil, List.nil_append, List.flatMap_cons, List.append_assoc]
          simpa using (hbelow c a').append [] (l'.flatMap encode ++ stop c')
  | cons a l ih =>
      cases l' with
      | nil =>
          rcases Prod.Lex.toLex_lt_toLex.1 hlt with hnil | ⟨heq, -⟩
          · exact absurd hnil (List.not_lt_nil _)
          · exact absurd heq (List.cons_ne_nil _ _)
      | cons a' l' =>
          rw [List.flatMap_cons, List.append_assoc, List.flatMap_cons, List.append_assoc]
          rcases Prod.Lex.toLex_lt_toLex.1 hlt with hfirst | ⟨heq, hsecond⟩
          · rcases List.cons_lt_cons_iff.1 hfirst with hhead | ⟨rfl, htail⟩
            · exact (h a a' hhead).append _ _
            · exact (ih l' (Prod.Lex.toLex_lt_toLex.2 (Or.inl htail))).append_left _
          · obtain ⟨rfl, rfl⟩ := List.cons.inj heq
            exact (ih l (Prod.Lex.toLex_lt_toLex.2 (Or.inr ⟨rfl, hsecond⟩))).append_left _

/-- What begins with two codes begins with two of the same value. -/
theorem Monotone.eq_of_begins [LinearOrder α] {encode : α → List β} (h : Monotone encode)
    {a a' : α} {r : List β} (hle : encode a <+: encode a' ++ r) : a = a' := by
  rcases lt_trichotomy a a' with hlt | rfl | hgt
  · have hbelow := (h a a' hlt).append [] r
    rw [List.append_nil] at hbelow
    exact absurd hle hbelow.not_prefix
  · rfl
  · have hbelow := (h a' a hgt).append r []
    rw [List.append_nil] at hbelow
    exact absurd hle hbelow.not_prefix_right

/-- The codes of a list begin those of another exactly if the list begins the other. -/
theorem Monotone.flatMap_prefix_iff [LinearOrder α] {encode : α → List β} (h : Monotone encode)
    {l l' : List α} {stop : List β} (hbelow : ∀ a, Below stop (encode a)) :
    l.flatMap encode <+: l'.flatMap encode ++ stop ↔ l <+: l' := by
  induction l generalizing l' with
  | nil => exact ⟨fun _ => List.nil_prefix, fun _ => List.nil_prefix⟩
  | cons a l ih =>
      rw [List.flatMap_cons]
      cases l' with
      | nil =>
          refine ⟨fun hle => ?_, fun hle => absurd (List.prefix_nil.1 hle) (List.cons_ne_nil _ _)⟩
          have hstop := (hbelow a).append [] (l.flatMap encode)
          rw [List.append_nil] at hstop
          exact absurd hle hstop.not_prefix_right
      | cons a' l' =>
          rw [List.flatMap_cons, List.append_assoc, List.cons_prefix_cons, ← ih]
          constructor
          · intro hle
            obtain rfl := h.eq_of_begins ((List.prefix_append _ _).trans hle)
            exact ⟨rfl, (List.prefix_append_right_inj _).1 hle⟩
          · rintro ⟨rfl, hle⟩
            exact (List.prefix_append_right_inj _).2 hle

end Sequence

end Codec
