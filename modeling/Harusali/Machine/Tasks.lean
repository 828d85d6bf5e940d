import Harusali.Machine.Run
import Mathlib.Data.Set.Insert

set_option autoImplicit false

/-! # Tasks that end once

The abstract picture of work that is started, is pending for a while, and then ends in one of
several ways. A task is named by its index in `opened`; `ended` relates tasks to their outcomes.
An outcome may claim a key, and no key is claimed twice.

The machine refuses to end a task that is not open, or with a key already claimed, so a
component that refines it ends every task at most once (`Sound`, `sound_run`). -/

structure Tasks (α ω : Type*) where
  opened : List α
  ended : Set (Nat × ω)

namespace Tasks

variable {α ω κ : Type*}

def IsOpen (s : Tasks α ω) (k : Nat) : Prop :=
  k < s.opened.length ∧ ∀ o, (k, o) ∉ s.ended

/-- No task has claimed the key of `o`. -/
def IsFree (s : Tasks α ω) (key : ω → Option κ) (o : ω) : Prop :=
  ∀ c, key o = some c → ∀ k' o', (k', o') ∈ s.ended → key o' ≠ some c

inductive Action (α ω : Type*) where
  | start (a : α)
  | close (k : Nat) (o : ω)
  /-- All open tasks end in the same way. -/
  | closeAll (o : ω)

open Classical in
noncomputable def machine (key : ω → Option κ) : Machine (Tasks α ω) (Action α ω) where
  step s
    | .start a => some { s with opened := s.opened ++ [a] }
    | .close k o =>
        if s.IsOpen k ∧ s.IsFree key o then some { s with ended := insert (k, o) s.ended } else none
    | .closeAll o =>
        if key o = none then some { s with ended := s.ended ∪ {p | s.IsOpen p.1 ∧ p.2 = o} }
        else none

theorem step_close {key : ω → Option κ} {s : Tasks α ω} {k : Nat} {o : ω} (hopen : s.IsOpen k)
    (hfree : s.IsFree key o) :
    (machine key).step s (.close k o) = some { s with ended := insert (k, o) s.ended } :=
  if_pos ⟨hopen, hfree⟩

theorem step_closeAll {key : ω → Option κ} (s : Tasks α ω) {o : ω} (ho : key o = none) :
    (machine key).step s (.closeAll o)
      = some { s with ended := s.ended ∪ {p | s.IsOpen p.1 ∧ p.2 = o} } :=
  if_pos ho

theorem isFree_of_none {key : ω → Option κ} (s : Tasks α ω) {o : ω} (ho : key o = none) :
    s.IsFree key o := by
  intro c hc
  rw [ho] at hc
  exact absurd hc (by simp)

/-! ## What every run guarantees -/

structure Sound (key : ω → Option κ) (s : Tasks α ω) : Prop where
  opened : ∀ k o, (k, o) ∈ s.ended → k < s.opened.length
  once : ∀ k o o', (k, o) ∈ s.ended → (k, o') ∈ s.ended → o = o'
  claimed : ∀ k o k' o' c, (k, o) ∈ s.ended → (k', o') ∈ s.ended → key o = some c →
    key o' = some c → k = k'

theorem sound_of_ended_eq_empty {key : ω → Option κ} {s : Tasks α ω} (h : s.ended = ∅) :
    s.Sound key := by
  constructor <;> simp [h]

theorem Sound.start {key : ω → Option κ} {s : Tasks α ω} (h : s.Sound key) (a : α) :
    Sound key { s with opened := s.opened ++ [a] } := by
  refine { h with opened := ?_ }
  intro k o hk
  have hlt := h.opened k o hk
  rw [List.length_append]
  omega

theorem Sound.close {key : ω → Option κ} {s : Tasks α ω} (h : s.Sound key) {k : Nat} {o : ω}
    (hopen : s.IsOpen k) (hfree : s.IsFree key o) :
    Sound key { s with ended := insert (k, o) s.ended } := by
  refine ⟨?_, ?_, ?_⟩
  · intro k₁ o₁ h₁
    rcases Set.mem_insert_iff.1 h₁ with heq | hold
    · rw [(Prod.mk.inj heq).1]
      exact hopen.1
    · exact h.opened k₁ o₁ hold
  · intro k₁ o₁ o₂ h₁ h₂
    rcases Set.mem_insert_iff.1 h₁ with heq₁ | hold₁
    · obtain ⟨rfl, rfl⟩ := Prod.mk.inj heq₁
      rcases Set.mem_insert_iff.1 h₂ with heq₂ | hold₂
      · exact (Prod.mk.inj heq₂).2.symm
      · exact absurd hold₂ (hopen.2 o₂)
    · rcases Set.mem_insert_iff.1 h₂ with heq₂ | hold₂
      · obtain ⟨rfl, rfl⟩ := Prod.mk.inj heq₂
        exact absurd hold₁ (hopen.2 o₁)
      · exact h.once k₁ o₁ o₂ hold₁ hold₂
  · intro k₁ o₁ k₂ o₂ c h₁ h₂ hc₁ hc₂
    rcases Set.mem_insert_iff.1 h₁ with heq₁ | hold₁
    · obtain ⟨rfl, rfl⟩ := Prod.mk.inj heq₁
      rcases Set.mem_insert_iff.1 h₂ with heq₂ | hold₂
      · exact (Prod.mk.inj heq₂).1.symm
      · exact absurd hc₂ (hfree c hc₁ k₂ o₂ hold₂)
    · rcases Set.mem_insert_iff.1 h₂ with heq₂ | hold₂
      · obtain ⟨rfl, rfl⟩ := Prod.mk.inj heq₂
        exact absurd hc₁ (hfree c hc₂ k₁ o₁ hold₁)
      · exact h.claimed k₁ o₁ k₂ o₂ c hold₁ hold₂ hc₁ hc₂

theorem Sound.closeAll {key : ω → Option κ} {s : Tasks α ω} (h : s.Sound key) {o : ω}
    (ho : key o = none) :
    Sound key { s with ended := s.ended ∪ {p | s.IsOpen p.1 ∧ p.2 = o} } := by
  refine ⟨?_, ?_, ?_⟩
  · intro k₁ o₁ h₁
    rcases h₁ with hold | hnew
    · exact h.opened k₁ o₁ hold
    · exact hnew.1.1
  · intro k₁ o₁ o₂ h₁ h₂
    rcases h₁ with hold₁ | hnew₁
    · rcases h₂ with hold₂ | hnew₂
      · exact h.once k₁ o₁ o₂ hold₁ hold₂
      · exact absurd hold₁ (hnew₂.1.2 o₁)
    · rcases h₂ with hold₂ | hnew₂
      · exact absurd hold₂ (hnew₁.1.2 o₂)
      · exact hnew₁.2.trans hnew₂.2.symm
  · intro k₁ o₁ k₂ o₂ c h₁ h₂ hc₁ hc₂
    -- the outcome all open tasks end with claims no key
    rcases h₁ with hold₁ | hnew₁
    · rcases h₂ with hold₂ | hnew₂
      · exact h.claimed k₁ o₁ k₂ o₂ c hold₁ hold₂ hc₁ hc₂
      · rw [show o₂ = o from hnew₂.2, ho] at hc₂
        exact absurd hc₂ (by simp)
    · rw [show o₁ = o from hnew₁.2, ho] at hc₁
      exact absurd hc₁ (by simp)

theorem sound_step {key : ω → Option κ} {s s' : Tasks α ω} {a : Action α ω}
    (hstep : (machine key).step s a = some s') (h : s.Sound key) : s'.Sound key := by
  cases a with
  | start a =>
      rw [← Option.some.inj hstep]
      exact h.start a
  | close k o =>
      simp only [machine] at hstep
      split_ifs at hstep with hguard
      rw [← Option.some.inj hstep]
      exact h.close hguard.1 hguard.2
  | closeAll o =>
      simp only [machine] at hstep
      split_ifs at hstep with ho
      rw [← Option.some.inj hstep]
      exact h.closeAll ho

/-- **No task ends twice, and no key is claimed by two tasks.** -/
theorem sound_run {key : ω → Option κ} {s t : Tasks α ω} {as : List (Action α ω)}
    (hrun : (machine key).run s as = some t) (h : s.Sound key) : t.Sound key :=
  Machine.run_preserves (P := Sound key) (fun _ _ _ hstep hs => sound_step hstep hs) hrun h

end Tasks
