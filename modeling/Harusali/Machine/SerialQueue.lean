import Mathlib.Data.List.Basic

set_option autoImplicit false

/-! # Serial queues

Tasks that run one at a time, in the order they were put in. A task relies on the state it will
find when its turn comes, which is the present one as the tasks before it leave it. `after` is
what a task makes of the state, `Fits` what it relies on; `AllFit` says that every task will find
what it relies on, and `drained` is the state when the queue has run empty. -/

namespace Harusali.SerialQueue

variable {σ τ : Type*} (after : σ → τ → σ) (Fits : σ → τ → Prop)

def drained (s : σ) (queue : List τ) : σ := queue.foldl after s

def AllFit : σ → List τ → Prop
  | _, [] => True
  | s, task :: rest => Fits s task ∧ AllFit (after s task) rest

variable {after Fits} {s : σ} {task : τ} {queue : List τ}

@[simp] theorem drained_nil (s : σ) : drained after s [] = s := rfl

@[simp] theorem drained_cons (s : σ) (task : τ) (rest : List τ) :
    drained after s (task :: rest) = drained after (after s task) rest := rfl

@[simp] theorem drained_append (s : σ) (queue queue' : List τ) :
    drained after s (queue ++ queue') = drained after (drained after s queue) queue' :=
  List.foldl_append ..

@[simp] theorem allFit_nil (s : σ) : AllFit after Fits s [] := trivial

@[simp] theorem allFit_cons {rest : List τ} :
    AllFit after Fits s (task :: rest) ↔ Fits s task ∧ AllFit after Fits (after s task) rest :=
  Iff.rfl

@[simp] theorem allFit_append {queue' : List τ} :
    AllFit after Fits s (queue ++ queue') ↔
      AllFit after Fits s queue ∧ AllFit after Fits (drained after s queue) queue' := by
  induction queue generalizing s with
  | nil => simp
  | cons task rest ih => simp only [List.cons_append, allFit_cons, drained_cons, ih, and_assoc]

/-- A task put in has to fit the state the queue leaves. -/
theorem AllFit.push (h : AllFit after Fits s queue) (htask : Fits (drained after s queue) task) :
    AllFit after Fits s (queue ++ [task]) :=
  allFit_append.2 ⟨h, htask, trivial⟩

/-- What the tasks keep holds when the queue has run empty. -/
theorem drained_preserves {P : σ → Prop} (keep : ∀ s, ∀ task ∈ queue, P s → P (after s task))
    (hs : P s) : P (drained after s queue) := by
  induction queue generalizing s with
  | nil => exact hs
  | cons task rest ih =>
      exact ih (fun s t ht => keep s t (List.mem_cons_of_mem _ ht))
        (keep s task (List.mem_cons_self ..) hs)

/-- Tasks that leave the state alone. -/
theorem drained_of_silent (h : ∀ s, ∀ task ∈ queue, after s task = s) :
    drained after s queue = s := by
  induction queue with
  | nil => rfl
  | cons task rest ih =>
      rw [drained_cons, h s task (List.mem_cons_self ..)]
      exact ih fun s t ht => h s t (List.mem_cons_of_mem _ ht)

end Harusali.SerialQueue
