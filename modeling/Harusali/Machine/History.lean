import Harusali.Machine.Run
import Mathlib.Data.List.Basic

set_option autoImplicit false

/-! # What a state remembers of its history

Two ways in which a field of the state is determined by the run that led to it.

* A *register* holds the value of the last step that wrote it (`lastWrite`,
  `observe_eq_lastWrite`).
* A *latch* is set by some steps and cleared by others, and is on exactly when a setting step has
  not been followed by a clearing one (`Since`, `latch_iff_since`).

Both come from a law about one step, proved by induction along the run. The law may use an
invariant `Ok` of the machine. -/

namespace Machine

variable {σ α β : Type*} {M : Machine σ α} {Ok : σ → Prop}

/-! ## Registers -/

/-- The value written by the last step of the trace that writes one. -/
def lastWrite (w : σ → α → Option β) (tr : List (σ × α)) : Option β :=
  (tr.filterMap fun t => w t.1 t.2).getLast?

@[simp] theorem lastWrite_nil (w : σ → α → Option β) : lastWrite w [] = none := rfl

theorem lastWrite_append (w : σ → α → Option β) (tr tr' : List (σ × α)) :
    lastWrite w (tr ++ tr') = (lastWrite w tr').or (lastWrite w tr) := by
  simp only [lastWrite, List.filterMap_append, List.getLast?_append]

theorem lastWrite_singleton (w : σ → α → Option β) (s : σ) (a : α) :
    lastWrite w [(s, a)] = w s a := by
  cases h : w s a with
  | none => simp [lastWrite, h]
  | some b => simp [lastWrite, h]

/-- Where what a step writes depends on its action only, the last write is read off the actions. -/
theorem lastWrite_eq_of_action {w : σ → α → Option β} {v : α → Option β} {tr : List (σ × α)}
    (h : ∀ t ∈ tr, w t.1 t.2 = v t.2) :
    lastWrite w tr = ((tr.map Prod.snd).filterMap v).getLast? := by
  rw [lastWrite, List.filterMap_congr h, List.filterMap_map]
  rfl

theorem lastWrite_mem {w : σ → α → Option β} {tr : List (σ × α)} {b : β}
    (h : lastWrite w tr = some b) : ∃ t ∈ tr, w t.1 t.2 = some b :=
  List.mem_filterMap.1 (List.mem_of_getLast? h)

/-- **The register rule.** An observation that every step either overwrites with `w` or leaves
    alone is, after a run, the last value written, or what it was at the start. -/
theorem observe_eq_lastWrite (obs : σ → β) {w : σ → α → Option β}
    (keep : ∀ s a s', M.step s a = some s' → Ok s → Ok s')
    (law : ∀ s a s', Ok s → M.step s a = some s' → obs s' = (w s a).getD (obs s))
    {s t : σ} {as : List α} (hs : Ok s) (h : M.run s as = some t) :
    obs t = (lastWrite w (M.trace s as)).getD (obs s) := by
  refine run_induction (P := fun as t => obs t = (lastWrite w (M.trace s as)).getD (obs s))
    rfl ?_ h
  intro as u a t hu ha ih
  have hok : Ok u := run_preserves keep hu hs
  rw [trace_concat a hu, lastWrite_append, lastWrite_singleton, law u a t hok ha, ih]
  cases w u a <;> rfl

/-! ## Latches -/

/-- Some step of the trace satisfies `B`, and no later one satisfies `R`. -/
def Since (B R : σ → α → Prop) (tr : List (σ × α)) : Prop :=
  ∃ pre t post, tr = pre ++ t :: post ∧ B t.1 t.2 ∧ ∀ u ∈ post, ¬ R u.1 u.2

theorem not_since_nil (B R : σ → α → Prop) : ¬ Since B R [] := by
  rintro ⟨pre, t, post, h, -⟩
  simp at h

/-- The recursion of `Since` along a trace that grows at its end. -/
theorem since_concat {B R : σ → α → Prop} {tr : List (σ × α)} {t : σ × α} :
    Since B R (tr ++ [t]) ↔ B t.1 t.2 ∨ (Since B R tr ∧ ¬ R t.1 t.2) := by
  constructor
  · rintro ⟨pre, b, post, heq, hB, hR⟩
    rcases List.eq_nil_or_concat post with rfl | ⟨post', u, rfl⟩
    · obtain ⟨-, rfl⟩ := List.append_singleton_inj.1 heq
      exact Or.inl hB
    · have heq' : tr ++ [t] = (pre ++ b :: post') ++ [u] := by simpa using heq
      obtain ⟨rfl, rfl⟩ := List.append_singleton_inj.1 heq'
      exact Or.inr ⟨⟨pre, b, post', rfl, hB, fun v hv => hR v (by simp [hv])⟩, hR t (by simp)⟩
  · rintro (hB | ⟨⟨pre, b, post, rfl, hB, hR⟩, ht⟩)
    · exact ⟨tr, t, [], rfl, hB, by simp⟩
    · refine ⟨pre, b, post ++ [t], by simp, hB, fun u hu => ?_⟩
      rcases List.mem_append.1 hu with hu | hu
      · exact hR u hu
      · obtain rfl := List.mem_singleton.1 hu
        exact ht

/-- A trace with no setting step at all leaves the latch off. -/
theorem not_since_of_forall {B R : σ → α → Prop} {tr : List (σ × α)}
    (h : ∀ t ∈ tr, ¬ B t.1 t.2) : ¬ Since B R tr := by
  rintro ⟨pre, t, post, rfl, hB, -⟩
  exact h t (by simp) hB

/-- **The latch rule.** A state property that steps satisfying `B` switch on, steps satisfying `R`
    switch off, and all others keep holds after a run exactly when a `B`-step has not been followed
    by an `R`-step. -/
theorem latch_iff_since {P : σ → Prop} {B R : σ → α → Prop}
    (keep : ∀ s a s', M.step s a = some s' → Ok s → Ok s')
    (law : ∀ s a s', Ok s → M.step s a = some s' → (P s' ↔ B s a ∨ (P s ∧ ¬ R s a)))
    {s t : σ} {as : List α} (hs : Ok s) (start : ¬ P s) (h : M.run s as = some t) :
    P t ↔ Since B R (M.trace s as) := by
  refine run_induction (P := fun as t => P t ↔ Since B R (M.trace s as)) ?_ ?_ h
  · simp only [trace_nil, start, not_since_nil]
  · intro as u a t hu ha ih
    have hok : Ok u := run_preserves keep hu hs
    rw [trace_concat a hu, since_concat, law u a t hok ha, ih]

end Machine
