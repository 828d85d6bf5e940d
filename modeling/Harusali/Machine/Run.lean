import Mathlib.Data.List.Induction
import Mathlib.Logic.Basic

set_option autoImplicit false

/-! # Machines and their runs

A `Machine` is a labelled transition system given by a partial step function: `step s a` is the
state action `a` leads to, and `none` where `a` cannot happen in `s`. Whatever the environment
decides (which pending answer arrives, and what it says) is part of the action, so a run is a
list of actions and quantifying over runs quantifies over every schedule.

`run` folds the step function, `trace` lists the steps taken together with the state each one
started from. Statements about a whole run are statements about its trace; `run_induction` is
the rule that proves them, and `run_preserves` the special case of a state invariant. -/

structure Machine (σ α : Type*) where
  step : σ → α → Option σ

namespace Machine

variable {σ α : Type*} (M : Machine σ α)

/-! ## Runs -/

/-- The state a list of actions leads to, `none` if one of them is not enabled at its turn. -/
def run : σ → List α → Option σ
  | s, [] => some s
  | s, a :: as => (M.step s a).bind fun s' => run s' as

/-- The steps of a run, each with the state it starts from. -/
def trace : σ → List α → List (σ × α)
  | _, [] => []
  | s, a :: as =>
      (s, a) :: match M.step s a with
        | some s' => trace s' as
        | none => []

@[simp] theorem run_nil (s : σ) : M.run s [] = some s := rfl

@[simp] theorem trace_nil (s : σ) : M.trace s [] = [] := rfl

variable {M}

theorem run_cons {s t : σ} {a : α} {as : List α} :
    M.run s (a :: as) = some t ↔ ∃ s', M.step s a = some s' ∧ M.run s' as = some t := by
  simp only [run, Option.bind_eq_some_iff]

theorem run_singleton {s t : σ} {a : α} : M.run s [a] = some t ↔ M.step s a = some t := by
  simp [run_cons]

theorem run_append {s t : σ} {as bs : List α} :
    M.run s (as ++ bs) = some t ↔ ∃ u, M.run s as = some u ∧ M.run u bs = some t := by
  induction as generalizing s with
  | nil => simp
  | cons a as ih =>
      simp only [List.cons_append, run_cons, ih]
      constructor
      · rintro ⟨s', hs', u, hu, ht⟩
        exact ⟨u, ⟨s', hs', hu⟩, ht⟩
      · rintro ⟨u, ⟨s', hs', hu⟩, ht⟩
        exact ⟨s', hs', u, hu, ht⟩

theorem run_concat {s t : σ} {as : List α} {a : α} :
    M.run s (as ++ [a]) = some t ↔ ∃ u, M.run s as = some u ∧ M.step u a = some t := by
  rw [run_append]
  simp only [run_singleton]

/-- **Induction along a run**, one action at a time from its start. The motive sees the actions so
    far, so it may speak of the history as well as of the state reached. -/
theorem run_induction {s : σ} {P : List α → σ → Prop} (start : P [] s)
    (next : ∀ as u a t, M.run s as = some u → M.step u a = some t → P as u → P (as ++ [a]) t)
    {as : List α} {t : σ} (h : M.run s as = some t) : P as t := by
  induction as using List.reverseRecOn generalizing t with
  | nil =>
      obtain rfl : s = t := by simpa using h
      exact start
  | append_singleton as a ih =>
      obtain ⟨u, hu, ht⟩ := run_concat.1 h
      exact next as u a t hu ht (ih hu)

/-- A state property that every step keeps holds at the end of a run it holds at the start of. -/
theorem run_preserves {P : σ → Prop} (keep : ∀ s a s', M.step s a = some s' → P s → P s')
    {s t : σ} {as : List α} (h : M.run s as = some t) (hs : P s) : P t :=
  run_induction (P := fun _ t => P t) hs (fun _ u a t _ ha hu => keep u a t ha hu) h

/-- Evaluating a run on fixed inputs: where it goes through and ends in a state passing the test
    `p`. -/
theorem exists_run_of_any (M : Machine σ α) (s : σ) (as : List α) (p : σ → Bool)
    (h : (M.run s as).any p = true) : ∃ t, M.run s as = some t ∧ p t = true := by
  cases hrun : M.run s as with
  | none => simp [hrun] at h
  | some t => exact ⟨t, rfl, by simpa [hrun] using h⟩

/-! ## Traces -/

theorem trace_append {s u : σ} {as : List α} (bs : List α) (h : M.run s as = some u) :
    M.trace s (as ++ bs) = M.trace s as ++ M.trace u bs := by
  induction as generalizing s with
  | nil =>
      obtain rfl : s = u := by simpa using h
      rfl
  | cons a as ih =>
      obtain ⟨s', hs', hu⟩ := run_cons.1 h
      simp only [List.cons_append, trace, hs', ih hu]

theorem trace_concat {s u : σ} {as : List α} (a : α) (h : M.run s as = some u) :
    M.trace s (as ++ [a]) = M.trace s as ++ [(u, a)] := by
  rw [trace_append [a] h]
  cases hstep : M.step u a with
  | none => simp [trace, hstep]
  | some t => simp [trace, hstep]

/-- Forgetting the states of a completed run gives its actions back. -/
theorem map_snd_trace {s t : σ} {as : List α} (h : M.run s as = some t) :
    (M.trace s as).map Prod.snd = as :=
  run_induction (P := fun as _ => (M.trace s as).map Prod.snd = as) rfl
    (fun as u a t hu _ ih => by rw [trace_concat a hu, List.map_append, ih]; rfl) h

/-- The actions on a completed run's trace are the actions of the run. -/
theorem mem_of_mem_trace {s t u : σ} {as : List α} {a : α} (h : M.run s as = some t)
    (hmem : (u, a) ∈ M.trace s as) : a ∈ as := by
  rw [← map_snd_trace h]
  exact List.mem_map_of_mem (f := Prod.snd) hmem

theorem exists_mem_trace {s t : σ} {as : List α} {a : α} (h : M.run s as = some t) (hmem : a ∈ as) :
    ∃ u, (u, a) ∈ M.trace s as := by
  rw [← map_snd_trace h] at hmem
  obtain ⟨⟨u, _⟩, hu, rfl⟩ := List.mem_map.1 hmem
  exact ⟨u, hu⟩

end Machine
