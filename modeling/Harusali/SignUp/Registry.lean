import Harusali.Machine.Refinement
import Harusali.Machine.Tasks
import Harusali.SignUp.Outcome

set_option autoImplicit false

/-! # Sign-up as a registry

What sign-up is for: each attempt ends once, as a registered account, as a failure or by being
lost with the process, and an account is registered by one attempt only. That is a machine of
`Tasks`, and the flow refines it (`refinesRegistry`). The two requests an attempt makes one
after the other are one step of the registry, taken when the second is answered; in between, and
after a refused `setData`, the account store holds accounts the registry does not know of.
`undocumented_account` says whose they are. -/

namespace Harusali

/-- How an attempt can end. -/
inductive Outcome where
  | registered (uid : Uid)
  | failed
  | lost
  deriving DecidableEq, Repr

def Outcome.uid? : Outcome → Option Uid
  | .registered uid => some uid
  | .failed => none
  | .lost => none

namespace SignUpFlow

abbrev Registry := Tasks Attempt Outcome

/-- Attempts end once, and a uid is registered once. -/
noncomputable def registryMachine : Machine Registry (Tasks.Action Attempt Outcome) :=
  Tasks.machine Outcome.uid?

def Ended (s : SignUpFlow) (k : Nat) : Outcome → Prop
  | .registered uid => (∃ value, (k, .success value) ∈ s.completed) ∧ (k, uid) ∈ s.returned
  | .failed => ∃ e, (k, .failure e) ∈ s.completed
  | .lost => k ∈ s.lost

def registry (s : SignUpFlow) : Registry where
  opened := s.attempts
  ended := {p | s.Ended p.1 p.2}

/-- The step of the registry that an action of the flow is. Creating the account is none: the
    attempt is registered when its document is. -/
def registryAction (s : SignUpFlow) : Action → Option (Tasks.Action Attempt Outcome)
  | .tapSignUp signUpVC fields =>
      (fields.signUpBtTap ⟨signUpVC, s.attempts.length⟩).map fun r => .start ⟨fields, r.withEmail⟩
  | .createUserResponse r (.error _) => some (.close r.completion.attempt .failed)
  | .createUserResponse _ (.success _) => none
  | .setDataResponse r (some _) => some (.close r.completion.attempt .failed)
  | .setDataResponse r none => some (.close r.completion.attempt (.registered r.path.document))
  | .terminate => some (.closeAll .lost)

/-! ## Open is in flight -/

theorem Inv.isOpen_iff {s : SignUpFlow} (h : s.Inv) {k : Nat} :
    s.registry.IsOpen k ↔ 0 < s.inFlight k := by
  have hk := h.ledger k
  constructor
  · rintro ⟨hlt, hended⟩
    have hlt' : k < s.attempts.length := hlt
    have hreports : s.reports k = 0 := by
      refine Pool.count_eq_zero.2 ?_
      rintro ⟨_, result⟩ hmem rfl
      cases result with
      | failure e => exact hended .failed ⟨e, hmem⟩
      | success value =>
          obtain ⟨_, uid, _, -, huid, -⟩ := h.records.success _ value hmem
          exact hended (.registered uid) ⟨⟨value, hmem⟩, huid⟩
    have hlosses : s.losses k = 0 := by
      refine Pool.count_eq_zero.2 ?_
      rintro _ hmem rfl
      exact hended .lost hmem
    rw [if_pos hlt'] at hk
    omega
  · intro hflight
    have hlt : k < s.attempts.length := by
      by_contra hge
      rw [if_neg hge] at hk
      omega
    rw [if_pos hlt] at hk
    have hnone : ∀ result, (k, result) ∉ s.completed := by
      intro result hmem
      have hpos : 0 < s.reports k := Pool.count_pos Prod.fst hmem
      omega
    refine ⟨hlt, fun o ho => ?_⟩
    cases o with
    | registered uid =>
        obtain ⟨⟨value, hmem⟩, -⟩ := ho
        exact hnone _ hmem
    | failed =>
        obtain ⟨e, hmem⟩ := ho
        exact hnone _ hmem
    | lost =>
        have hpos : 0 < s.losses k := Pool.count_pos id ho
        omega

theorem Inv.isOpen_of_createUser {s : SignUpFlow} (h : s.Inv) {r : CreateUserRequest}
    (hr : r ∈ s.createUsers) : s.registry.IsOpen r.completion.attempt := by
  have hpos := Pool.count_pos (·.completion.attempt) hr
  refine h.isOpen_iff.2 ?_
  unfold inFlight
  omega

theorem Inv.isOpen_of_setData {s : SignUpFlow} (h : s.Inv) {r : SetDataRequest}
    (hr : r ∈ s.setDatas) : s.registry.IsOpen r.completion.attempt := by
  have hpos := Pool.count_pos (·.completion.attempt) hr
  refine h.isOpen_iff.2 ?_
  unfold inFlight
  omega

/-- The uid an attempt is about to register is registered by no other. -/
theorem Inv.isFree_of_setData {s : SignUpFlow} (h : s.Inv) {r : SetDataRequest}
    (hr : r ∈ s.setDatas) : s.registry.IsFree Outcome.uid? (.registered r.path.document) := by
  intro uid huid k o hk ho
  obtain ⟨_, uid', -, hreturned, hpath, -⟩ := h.records.setData r hr
  have huid' : uid' = uid := by
    rw [hpath] at huid
    exact Option.some.inj huid
  cases o with
  | failed => exact absurd ho (by simp [Outcome.uid?])
  | lost => exact absurd ho (by simp [Outcome.uid?])
  | registered uid'' =>
      have hk' : k = r.completion.attempt := by
        refine h.records.returned_attempt hk.2 ?_
        rw [show uid'' = uid from Option.some.inj ho, ← huid']
        exact hreturned
      rw [hk'] at hk
      exact (h.isOpen_of_setData hr).2 _ hk

/-! ## Refinement -/

/-- Reporting a failure ends the attempt in the registry, whatever request it takes away. -/
theorem registry_failure (s : SignUpFlow) (k : Nat) (e : NSError)
    (createUsers : List CreateUserRequest) (setDatas : List SetDataRequest) :
    registry { s with createUsers, setDatas, completed := s.completed ++ [(k, .failure e)] }
      = { s.registry with ended := insert (k, .failed) s.registry.ended } := by
  have hended : ∀ k' o, Ended { s with
        createUsers, setDatas, completed := s.completed ++ [(k, .failure e)] } k' o ↔
      (k', o) = (k, .failed) ∨ s.Ended k' o := by
    intro k' o
    cases o with
    | registered uid => simp [Ended]
    | lost => simp [Ended]
    | failed =>
        constructor
        · rintro ⟨e', hmem⟩
          rcases List.mem_append.1 hmem with hold | hlast
          · exact Or.inr ⟨e', hold⟩
          · rw [(Prod.mk.inj (List.mem_singleton.1 hlast)).1]
            exact Or.inl rfl
        · rintro (heq | ⟨e', hold⟩)
          · rw [(Prod.mk.inj heq).1]
            exact ⟨e, List.mem_append_right _ (List.mem_singleton.2 rfl)⟩
          · exact ⟨e', List.mem_append_left _ hold⟩
  have hset : {p : Nat × Outcome | Ended { s with
      createUsers, setDatas, completed := s.completed ++ [(k, .failure e)] } p.1 p.2}
        = insert (k, .failed) {p | s.Ended p.1 p.2} := by
    ext ⟨k', o⟩
    exact hended k' o
  rw [registry, registry, hset]

/-- Creating the account leaves the registry as it is: its attempt has not reported. -/
theorem registry_createUserSuccess {s : SignUpFlow} (h : s.Inv) {r : CreateUserRequest}
    (hr : r ∈ s.createUsers) (accounts : Accounts) (setDatas : List SetDataRequest) (uid : Uid) :
    registry { s with
      accounts
      createUsers := s.createUsers.erase r
      setDatas
      returned := s.returned ++ [(r.completion.attempt, uid)] } = s.registry := by
  have hset : {p : Nat × Outcome | Ended { s with
      accounts
      createUsers := s.createUsers.erase r
      setDatas
      returned := s.returned ++ [(r.completion.attempt, uid)] } p.1 p.2}
        = {p | s.Ended p.1 p.2} := by
    ext ⟨k, o⟩
    cases o with
    | failed => exact Iff.rfl
    | lost => exact Iff.rfl
    | registered uid' =>
        constructor
        -- the uid is new to the attempt, which has not reported, so it is not registered by it
        · rintro ⟨⟨value, hmem⟩, huid⟩
          rcases List.mem_append.1 huid with hold | hlast
          · exact ⟨⟨value, hmem⟩, hold⟩
          · have hk : k = r.completion.attempt := (Prod.mk.inj (List.mem_singleton.1 hlast)).1
            rw [hk] at hmem
            exact absurd hmem (h.ledger.not_completed hr _)
        · rintro ⟨hvalue, huid⟩
          exact ⟨hvalue, List.mem_append_left _ huid⟩
  rw [registry, registry, hset]

/-- Writing the document registers the attempt. -/
theorem registry_setDataSuccess {s : SignUpFlow} (h : s.Inv) {r : SetDataRequest}
    (hr : r ∈ s.setDatas) (value : String) :
    registry { s with
      firestore := s.firestore.setData r.path r.data none
      setDatas := s.setDatas.erase r
      completed := s.completed ++ [(r.completion.attempt, .success value)] }
      = { s.registry with
          ended := insert (r.completion.attempt, .registered r.path.document) s.registry.ended } := by
  obtain ⟨_, uid, -, hreturned, hpath, -⟩ := h.records.setData r hr
  have hset : {p : Nat × Outcome | Ended { s with
      firestore := s.firestore.setData r.path r.data none
      setDatas := s.setDatas.erase r
      completed := s.completed ++ [(r.completion.attempt, .success value)] } p.1 p.2}
        = insert (r.completion.attempt, .registered r.path.document) {p | s.Ended p.1 p.2} := by
    rw [hpath]
    ext ⟨k, o⟩
    rw [Set.mem_insert_iff]
    cases o with
    | failed => simp [Ended]
    | lost => simp [Ended]
    | registered uid' =>
        constructor
        · rintro ⟨⟨value', hmem⟩, huid⟩
          rcases List.mem_append.1 hmem with hold | hlast
          · exact Or.inr ⟨⟨value', hold⟩, huid⟩
          · have hk : k = r.completion.attempt := (Prod.mk.inj (List.mem_singleton.1 hlast)).1
            rw [hk] at huid ⊢
            rw [h.records.returned_uid huid hreturned]
            exact Or.inl rfl
        · rintro (heq | ⟨⟨value', hold⟩, huid⟩)
          · obtain ⟨rfl, huid⟩ := Prod.mk.inj heq
            rw [Outcome.registered.inj huid]
            exact ⟨⟨value, List.mem_append_right _ (List.mem_singleton.2 rfl)⟩, hreturned⟩
          · exact ⟨⟨value', List.mem_append_left _ hold⟩, huid⟩
  rw [registry, registry, hset]

/-- The end of the process loses what is open. -/
theorem registry_terminate {s : SignUpFlow} (h : s.Inv) :
    s.terminate.registry = { s.registry with
      ended := s.registry.ended ∪ {p | s.registry.IsOpen p.1 ∧ p.2 = .lost} } := by
  have hset : {p : Nat × Outcome | s.terminate.Ended p.1 p.2}
      = s.registry.ended ∪ {p | s.registry.IsOpen p.1 ∧ p.2 = .lost} := by
    ext ⟨k, o⟩
    cases o with
    | registered uid => simp [Ended, terminate, registry]
    | failed => simp [Ended, terminate, registry]
    | lost =>
        have hopen : s.registry.IsOpen k ↔
            (∃ r ∈ s.createUsers, r.completion.attempt = k) ∨
              (∃ r ∈ s.setDatas, r.completion.attempt = k) := by
          rw [h.isOpen_iff, inFlight, Nat.add_pos_iff_pos_or_pos, Pool.count_pos_iff,
            Pool.count_pos_iff]
        simp only [Set.mem_union, Set.mem_ofPred_eq, and_true, hopen]
        simp only [Ended, terminate, registry, List.mem_append, List.mem_map, Set.mem_ofPred_eq]
        rw [or_assoc]
  rw [registry, registry, hset]
  rfl

theorem registry_step {s s' : SignUpFlow} {action : Action} (h : s.Inv)
    (hstep : machine.step s action = some s') :
    registryMachine.stepOpt s.registry (s.registryAction action) = some s'.registry := by
  cases step_of_machine hstep with
  | tapNothing hguard =>
      rw [registryAction, hguard]
      rfl
  | tapSignUp htap =>
      rw [registryAction, htap]
      rfl
  | createUserError hr =>
      rw [registry_failure]
      exact Tasks.step_close (h.isOpen_of_createUser hr) (Tasks.isFree_of_none _ rfl)
  | createUserSuccess hr hcreate =>
      rw [registry_createUserSuccess h hr]
      rfl
  | setDataError hr =>
      rw [registry_failure]
      exact Tasks.step_close (h.isOpen_of_setData hr) (Tasks.isFree_of_none _ rfl)
  | @setDataSuccess r hr =>
      rw [registry_setDataSuccess h hr]
      exact Tasks.step_close (h.isOpen_of_setData hr) (h.isFree_of_setData hr)
  | terminate =>
      rw [registry_terminate h]
      exact Tasks.step_closeAll _ rfl

/-- **The flow refines the registry.** -/
noncomputable def refinesRegistry : Refines machine registryMachine where
  Ok := Inv
  proj := registry
  act := registryAction
  ok_step _ _ _ hstep h := inv_step h hstep
  step _ _ _ h hstep := registry_step h hstep

/-! ## The registry and the stores -/

/-- What the registry calls registered is in the stores. -/
theorem Inv.registered {s : SignUpFlow} (h : s.Inv) {k : Nat} {uid : Uid}
    (hk : (k, .registered uid) ∈ s.registry.ended) :
    ∃ a, s.attempts[k]? = some a ∧ s.Registered a uid := by
  obtain ⟨⟨value, hvalue⟩, huid⟩ := hk
  obtain ⟨a, uid', ha, huid', hregistered⟩ := h.records.registered hvalue
  rw [h.records.returned_uid huid' huid] at hregistered
  exact ⟨a, ha, hregistered⟩

end SignUpFlow

end Harusali
