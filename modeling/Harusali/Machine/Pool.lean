import Mathlib.Data.List.Count
import Mathlib.Data.List.Perm.Basic

set_option autoImplicit false

/-! # Pools of pending items

A list used as a multiset of items in flight: items are appended when they are issued and erased
when they are answered. `Pool.count key pool k` is the number of items in it that carry the
ticket `k`. Moving an item between pools keeps the sum of their counts, which is how
conservation laws are proved. -/

namespace Pool

variable {α κ : Type*} [DecidableEq α] [DecidableEq κ]

def count (key : α → κ) (pool : List α) (k : κ) : Nat :=
  (pool.map key).count k

omit [DecidableEq α] in
@[simp] theorem count_nil (key : α → κ) (k : κ) : count key [] k = 0 := rfl

omit [DecidableEq α] in
theorem count_append (key : α → κ) (pool pool' : List α) (k : κ) :
    count key (pool ++ pool') k = count key pool k + count key pool' k := by
  simp only [count, List.map_append, List.count_append]

omit [DecidableEq α] in
theorem count_singleton (key : α → κ) (a : α) (k : κ) :
    count key [a] k = if key a = k then 1 else 0 := by
  simp only [count, List.map_cons, List.map_nil, List.count_singleton, beq_iff_eq]

/-- Answering an item takes one ticket out of its pool. -/
theorem count_erase (key : α → κ) {pool : List α} {a : α} (h : a ∈ pool) (k : κ) :
    count key pool k = count key (pool.erase a) k + if key a = k then 1 else 0 := by
  have hperm : List.Perm (pool.map key) ((a :: pool.erase a).map key) :=
    (List.perm_cons_erase h).map key
  rw [count, hperm.count_eq, List.map_cons, List.count_cons]
  simp [count]

omit [DecidableEq α] in
theorem count_pos (key : α → κ) {pool : List α} {a : α} (h : a ∈ pool) :
    0 < count key pool (key a) :=
  List.count_pos_iff.2 (List.mem_map_of_mem h)

omit [DecidableEq α] in
theorem count_eq_zero {key : α → κ} {pool : List α} {k : κ} :
    count key pool k = 0 ↔ ∀ a ∈ pool, key a ≠ k := by
  simp [count, List.count_eq_zero]

omit [DecidableEq α] in
theorem count_pos_iff {key : α → κ} {pool : List α} {k : κ} :
    0 < count key pool k ↔ ∃ a ∈ pool, key a = k := by
  simp [count, List.count_pos_iff]

end Pool
