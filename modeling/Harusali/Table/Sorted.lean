import Mathlib.Data.Prod.Lex
import Mathlib.Data.List.Pairwise

set_option autoImplicit false

/-! # Sorted tables

A table of rows sorted by key, each key once, as a store keeps it, with a cursor that goes to the
first row from a key on and steps back from there. Where the cursor comes to stand is said in terms
of two halves of the table, the rows below a key and those from it on. -/

variable {κ ν : Type*} [LinearOrder κ]

/-- Rows sorted by key, each key once. -/
structure Table (κ ν : Type*) [LinearOrder κ] where
  rows : List (κ × ν)
  sorted : rows.Pairwise fun row row' => row.1 < row'.1

namespace Table

def empty : Table κ ν where
  rows := []
  sorted := List.Pairwise.nil

/-! ## The rows below a key and from it on -/

def below (t : Table κ ν) (k : κ) : List (κ × ν) := t.rows.filter fun row => row.1 < k

def onward (t : Table κ ν) (k : κ) : List (κ × ν) := t.rows.filter fun row => k ≤ row.1

theorem mem_below {t : Table κ ν} {k : κ} {row : κ × ν} :
    row ∈ t.below k ↔ row ∈ t.rows ∧ row.1 < k := by
  rw [below, List.mem_filter, decide_eq_true_eq]

theorem mem_onward {t : Table κ ν} {k : κ} {row : κ × ν} :
    row ∈ t.onward k ↔ row ∈ t.rows ∧ k ≤ row.1 := by
  rw [onward, List.mem_filter, decide_eq_true_eq]

theorem rows_eq (t : Table κ ν) (k : κ) : t.rows = t.below k ++ t.onward k := by
  obtain ⟨rows, sorted⟩ := t
  simp only [below, onward]
  induction rows with
  | nil => rfl
  | cons row rows ih =>
      obtain ⟨hrow, hrows⟩ := List.pairwise_cons.1 sorted
      by_cases hlt : row.1 < k
      · rw [List.filter_cons_of_pos (by simpa using hlt),
          List.filter_cons_of_neg (by simpa using hlt), List.cons_append, ← ih hrows]
      · -- the first row from `k` on: no later one is below it
        have hnone : rows.filter (fun row => decide (row.1 < k)) = [] := by
          refine List.filter_eq_nil_iff.2 fun row' hrow' => ?_
          rw [decide_eq_true_eq]
          exact fun hlt' => hlt ((hrow row' hrow').trans hlt')
        have hall : rows.filter (fun row => decide (k ≤ row.1)) = rows := by
          refine List.filter_eq_self.2 fun row' hrow' => ?_
          rw [decide_eq_true_eq]
          exact (not_lt.1 hlt).trans (hrow row' hrow').le
        rw [List.filter_cons_of_neg (by simpa using hlt), hnone,
          List.filter_cons_of_pos (by simpa using hlt), hall, List.nil_append]

/-- A key stands in one row. -/
theorem eq_of_key {t : Table κ ν} {row row' : κ × ν} (hrow : row ∈ t.rows) (hrow' : row' ∈ t.rows)
    (hkey : row.1 = row'.1) : row = row' := by
  by_contra hne
  have : Std.Symm fun row row' : κ × ν => row.1 ≠ row'.1 := ⟨fun _ _ h => h.symm⟩
  have hkeys : t.rows.Pairwise fun row row' => row.1 ≠ row'.1 := t.sorted.imp fun hlt => hlt.ne
  exact hkeys.forall hrow hrow' hne hkey

/-! ## Reading and writing -/

def get (t : Table κ ν) (k : κ) : Option ν := (t.rows.find? fun row => row.1 = k).map Prod.snd

theorem get_eq_some {t : Table κ ν} {k : κ} {v : ν} : t.get k = some v ↔ (k, v) ∈ t.rows := by
  rw [get, Option.map_eq_some_iff]
  constructor
  · rintro ⟨⟨k', v'⟩, hfind, rfl⟩
    obtain rfl : k' = k := by simpa using List.find?_some hfind
    exact List.mem_of_find?_eq_some hfind
  · intro hrow
    cases hfind : t.rows.find? fun row => decide (row.1 = k) with
    | none => exact absurd (decide_eq_true rfl) (List.find?_eq_none.1 hfind _ hrow)
    | some row =>
        have hkey : row.1 = k := by simpa using List.find?_some hfind
        rw [eq_of_key (List.mem_of_find?_eq_some hfind) hrow hkey]
        exact ⟨(k, v), rfl, rfl⟩

def put (t : Table κ ν) (k : κ) (v : ν) : Table κ ν where
  rows := t.below k ++ (k, v) :: t.rows.filter fun row => k < row.1
  sorted := by
    refine List.pairwise_append.2 ⟨t.sorted.filter _, List.pairwise_cons.2
      ⟨fun row hrow => by simpa using (List.mem_filter.1 hrow).2, t.sorted.filter _⟩, ?_⟩
    intro row hrow row' hrow'
    have hlt := (mem_below.1 hrow).2
    rcases List.mem_cons.1 hrow' with rfl | hrow'
    · exact hlt
    · exact hlt.trans (by simpa using (List.mem_filter.1 hrow').2)

theorem mem_put {t : Table κ ν} {k : κ} {v : ν} {row : κ × ν} :
    row ∈ (t.put k v).rows ↔ row = (k, v) ∨ (row ∈ t.rows ∧ row.1 ≠ k) := by
  simp only [put, List.mem_append, mem_below, List.mem_cons, List.mem_filter, decide_eq_true_eq]
  constructor
  · rintro (⟨hrow, hlt⟩ | rfl | ⟨hrow, hlt⟩)
    · exact Or.inr ⟨hrow, hlt.ne⟩
    · exact Or.inl rfl
    · exact Or.inr ⟨hrow, hlt.ne'⟩
  · rintro (rfl | ⟨hrow, hne⟩)
    · exact Or.inr (Or.inl rfl)
    · rcases lt_or_gt_of_ne hne with hlt | hgt
      · exact Or.inl ⟨hrow, hlt⟩
      · exact Or.inr (Or.inr ⟨hrow, hgt⟩)

def erase (t : Table κ ν) (k : κ) : Table κ ν where
  rows := t.rows.filter fun row => row.1 ≠ k
  sorted := t.sorted.filter _

theorem mem_erase {t : Table κ ν} {k : κ} {row : κ × ν} :
    row ∈ (t.erase k).rows ↔ row ∈ t.rows ∧ row.1 ≠ k := by
  simp [erase, List.mem_filter]

theorem mem_foldl_put {keys : List κ} {t : Table κ ν} {v : ν} {row : κ × ν} :
    row ∈ (keys.foldl (fun t k => t.put k v) t).rows ↔
      (row.1 ∈ keys ∧ row.2 = v) ∨ (row ∈ t.rows ∧ row.1 ∉ keys) := by
  induction keys generalizing t with
  | nil => simp
  | cons k keys ih =>
      rw [List.foldl_cons, ih, mem_put]
      obtain ⟨k', v'⟩ := row
      simp only [List.mem_cons, Prod.mk.injEq]
      by_cases hkeys : k' ∈ keys
      · simp [hkeys]
      · by_cases hk : k' = k
        · subst hk
          simp [hkeys]
        · simp [hkeys, hk]

theorem mem_foldl_erase {keys : List κ} {t : Table κ ν} {row : κ × ν} :
    row ∈ (keys.foldl (fun t k => t.erase k) t).rows ↔ row ∈ t.rows ∧ row.1 ∉ keys := by
  induction keys generalizing t with
  | nil => simp
  | cons k keys ih =>
      rw [List.foldl_cons, ih, mem_erase, List.mem_cons, not_or, and_assoc]

/-! ## The cursor -/

/-- A position in a table; past the end it is invalid. -/
structure Cursor (κ ν : Type*) [LinearOrder κ] where
  table : Table κ ν
  position : Nat

namespace Cursor

def row? (c : Cursor κ ν) : Option (κ × ν) := c.table.rows[c.position]?

def valid (c : Cursor κ ν) : Bool := c.position < c.table.rows.length

/-- What a loop over `Next` sees. -/
def rest (c : Cursor κ ν) : List (κ × ν) := c.table.rows.drop c.position

def prev (c : Cursor κ ν) : Cursor κ ν :=
  { c with position := if c.position = 0 then c.table.rows.length else c.position - 1 }

def seekToLast (c : Cursor κ ν) : Cursor κ ν :=
  { c with position := c.table.rows.length - 1 }

end Cursor

/-- A cursor at the first row from `k` on. -/
def seek (t : Table κ ν) (k : κ) : Cursor κ ν where
  table := t
  position := t.rows.findIdx fun row => k ≤ row.1

theorem seek_position (t : Table κ ν) (k : κ) : (t.seek k).position = (t.below k).length := by
  have hbelow : (t.below k).findIdx (fun row => decide (k ≤ row.1)) = (t.below k).length := by
    refine List.findIdx_eq_length.2 fun row hrow => ?_
    rw [decide_eq_false_iff_not, not_le]
    exact (mem_below.1 hrow).2
  have honward : (t.onward k).findIdx (fun row => decide (k ≤ row.1)) = 0 := by
    cases hrows : t.onward k with
    | nil => rfl
    | cons row rows =>
        have hrow : row ∈ t.onward k := by rw [hrows]; exact List.mem_cons_self ..
        rw [List.findIdx_cons, decide_eq_true (mem_onward.1 hrow).2]
        rfl
  simp only [seek]
  rw [t.rows_eq k]
  rw [List.findIdx_append, hbelow, honward]
  simp

theorem rest_seek (t : Table κ ν) (k : κ) : (t.seek k).rest = t.onward k := by
  rw [Cursor.rest, seek_position]
  change t.rows.drop _ = _
  rw [t.rows_eq k]
  exact List.drop_left

theorem row?_seek (t : Table κ ν) (k : κ) : (t.seek k).row? = (t.onward k).head? := by
  rw [Cursor.row?, seek_position]
  change t.rows[_]? = _
  rw [t.rows_eq k]
  rw [List.getElem?_append_right (Nat.le_refl _), Nat.sub_self, List.head?_eq_getElem?]

/-- The first row from a key on has the smallest of the keys from it on. -/
theorem le_of_head? {t : Table κ ν} {k : κ} {first row : κ × ν}
    (hfirst : (t.onward k).head? = some first) (hrow : row ∈ t.onward k) : first.1 ≤ row.1 := by
  obtain ⟨rest, heq⟩ := List.head?_eq_some_iff.1 hfirst
  have hsorted : (t.onward k).Pairwise fun row row' => row.1 < row'.1 := t.sorted.filter _
  rw [heq] at hsorted hrow
  rcases List.mem_cons.1 hrow with rfl | hrow
  · exact le_refl _
  · exact ((List.pairwise_cons.1 hsorted).1 row hrow).le

end Table
