import Harusali.Machine.History

set_option autoImplicit false

/-! # Refinement between machines

`Refines M N` says that `M` does, seen through a projection of its states, only what `N` can do:
each step of `M` is a step of `N` or leaves the projection unchanged. Runs then project to runs
(`Refines.run`), so whatever is proved of every run of `N` holds of the projected runs of `M`.
The rules of `Machine.History` lift in the same way: a law about the steps of `N` determines, by
the steps of `M`, what the projection shows. -/

/-- A step of a machine, or standing still. -/
def Machine.stepOpt {τ β : Type*} (N : Machine τ β) (s : τ) : Option β → Option τ
  | none => some s
  | some b => N.step s b

/-- `M` refines `N` on the states satisfying `Ok`, an invariant of `M`. -/
structure Refines {σ α τ β : Type*} (M : Machine σ α) (N : Machine τ β) where
  /-- Invariant of `M` the step conditions may use. -/
  Ok : σ → Prop
  proj : σ → τ
  /-- The action of `N` a step of `M` amounts to, `none` for a step `N` does not see. -/
  act : σ → α → Option β
  ok_step : ∀ s a s', M.step s a = some s' → Ok s → Ok s'
  step : ∀ s a s', Ok s → M.step s a = some s' → N.stepOpt (proj s) (act s a) = some (proj s')

namespace Refines

variable {σ α τ β : Type*} {M : Machine σ α} {N : Machine τ β} (R : Refines M N)

theorem unseen {s s' : σ} {a : α} (hok : R.Ok s) (h : M.step s a = some s')
    (hact : R.act s a = none) : R.proj s' = R.proj s := by
  have hstep := R.step s a s' hok h
  rw [hact] at hstep
  exact (Option.some.inj hstep).symm

theorem seen {s s' : σ} {a : α} {b : β} (hok : R.Ok s) (h : M.step s a = some s')
    (hact : R.act s a = some b) : N.step (R.proj s) b = some (R.proj s') := by
  have hstep := R.step s a s' hok h
  rwa [hact] at hstep

/-- The actions of `N` that a run of `M` amounts to. -/
def acts (s : σ) (as : List α) : List β :=
  (M.trace s as).filterMap fun t => R.act t.1 t.2

theorem acts_concat {s u : σ} {as : List α} (a : α) (h : M.run s as = some u) :
    R.acts s (as ++ [a]) = R.acts s as ++ (R.act u a).toList := by
  simp only [acts, Machine.trace_concat a h, List.filterMap_append]
  cases hact : R.act u a <;> simp [hact]

theorem ok_run {s t : σ} {as : List α} (hs : R.Ok s) (h : M.run s as = some t) : R.Ok t :=
  Machine.run_preserves R.ok_step h hs

/-- **Runs project to runs.** -/
theorem run {s t : σ} {as : List α} (hs : R.Ok s) (h : M.run s as = some t) :
    N.run (R.proj s) (R.acts s as) = some (R.proj t) := by
  refine Machine.run_induction (P := fun as t => N.run (R.proj s) (R.acts s as) = some (R.proj t))
    rfl ?_ h
  intro as u a t hu ha ih
  have hok : R.Ok u := R.ok_run hs hu
  rw [R.acts_concat a hu]
  cases hact : R.act u a with
  | none =>
      rw [R.unseen hok ha hact]
      simpa using ih
  | some b => exact Machine.run_concat.2 ⟨R.proj u, ih, R.seen hok ha hact⟩

/-- Every action a run of `M` amounts to comes from one of its steps. -/
theorem mem_acts {s : σ} {as : List α} {b : β} :
    b ∈ R.acts s as ↔ ∃ t ∈ M.trace s as, R.act t.1 t.2 = some b := by
  simp only [acts, List.mem_filterMap]

/-- Refinements compose. -/
def trans {υ γ : Type*} {K : Machine υ γ} (R : Refines M N) (S : Refines N K) : Refines M K where
  Ok s := R.Ok s ∧ S.Ok (R.proj s)
  proj s := S.proj (R.proj s)
  act s a := (R.act s a).bind (S.act (R.proj s))
  ok_step s a s' hstep hok := by
    refine ⟨R.ok_step s a s' hstep hok.1, ?_⟩
    cases hact : R.act s a with
    | none =>
        rw [R.unseen hok.1 hstep hact]
        exact hok.2
    | some b => exact S.ok_step _ b _ (R.seen hok.1 hstep hact) hok.2
  step s a s' hok hstep := by
    cases hact : R.act s a with
    | none =>
        rw [R.unseen hok.1 hstep hact]
        rfl
    | some b => exact S.step _ b _ hok.2 (R.seen hok.1 hstep hact)

/-! ## History rules through a refinement -/

/-- A property of the steps of `N`, read on the steps of `M`. -/
def lift (B : τ → β → Prop) (s : σ) (a : α) : Prop :=
  ∃ b, R.act s a = some b ∧ B (R.proj s) b

theorem latch_iff_since {P : τ → Prop} {B C : τ → β → Prop}
    (law : ∀ s b s', N.step s b = some s' → (P s' ↔ B s b ∨ (P s ∧ ¬ C s b)))
    {s t : σ} {as : List α} (hs : R.Ok s) (start : ¬ P (R.proj s)) (h : M.run s as = some t) :
    P (R.proj t) ↔ Machine.Since (R.lift B) (R.lift C) (M.trace s as) := by
  refine Machine.latch_iff_since (P := fun s => P (R.proj s)) R.ok_step ?_ hs start h
  intro s a s' hok hstep
  cases hact : R.act s a with
  | none => simp [lift, hact, R.unseen hok hstep hact]
  | some b => simp [lift, hact, law _ b _ (R.seen hok hstep hact)]

/-- The value a step of `M` writes to an observation of the projection. -/
def write {γ : Type*} (w : τ → β → Option γ) (s : σ) (a : α) : Option γ :=
  (R.act s a).bind (w (R.proj s))

theorem observe_eq_lastWrite {γ : Type*} (obs : τ → γ) {w : τ → β → Option γ}
    (law : ∀ s b s', N.step s b = some s' → obs s' = (w s b).getD (obs s))
    {s t : σ} {as : List α} (hs : R.Ok s) (h : M.run s as = some t) :
    obs (R.proj t) = (Machine.lastWrite (R.write w) (M.trace s as)).getD (obs (R.proj s)) := by
  refine Machine.observe_eq_lastWrite (fun s => obs (R.proj s)) R.ok_step ?_ hs h
  intro s a s' hok hstep
  cases hact : R.act s a with
  | none => simp [write, hact, R.unseen hok hstep hact]
  | some b => simp [write, hact, law _ b _ (R.seen hok hstep hact)]

end Refines
