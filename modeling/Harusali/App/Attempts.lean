import Harusali.App.Agreement
import Harusali.SignUp.Registry

set_option autoImplicit false

/-! # Sign-up attempts in the app

The whole app, with its three screens and its restarts, does to the sign-up flow nothing but the
flow's own steps (`refinesFlow`). What is known of attempts therefore holds in the app too,
whatever the user does between the responses: log in, log out, go back, restart. Restarting is
where the app differs from one sign-up screen, since a pending attempt is lost with its process. -/

namespace Harusali.App

/-- The step of the flow that an action of the app is. A launch ends the process before it. -/
def flowAction (s : App) : Action → Option SignUpFlow.Action
  | .launch _ => some .terminate
  | .signUpBtTap =>
      match s.front with
      | .signUp i => s.signUpVCs[i]?.map (.tapSignUp i)
      | _ => none
  | .createUserResponse r response => some (.createUserResponse r response)
  | .setDataResponse r error => some (.setDataResponse r error)
  | _ => none

@[simp] theorem flow_launch (keychain : Option User) (keychainError : Option NSError)
    (flow : SignUpFlow) (signInCalls : Nat) :
    (launch keychain keychainError flow signInCalls).flow = flow := by
  rw [launch, checkIfUserLoggedIn_eq]

@[simp] theorem flow_perform (s : App) (method : Option SignUpVC.Method) :
    (s.perform method).flow = s.flow := by
  cases method <;> rfl

@[simp] theorem flow_showResult (s : App) (effect : Effect) :
    (s.showResult effect).flow = s.flow := by
  obtain ⟨alert, heq⟩ := showResult_frame s effect
  rw [heq]

theorem flow_step {s s' : App} {action : Action} (h : Step s action s') :
    SignUpFlow.machine.stepOpt s.flow (s.flowAction action) = some s'.flow := by
  cases h with
  | launch keychainError =>
      rw [flow_launch]
      rfl
  | @signUpBtTap i fields hfront hfields =>
      simp only [flowAction, hfront, hfields, Option.map_some]
      rfl
  | tapAlert hfront haction =>
      rw [flow_perform]
      rfl
  | createUserSuccess hflow =>
      rw [flow_showResult]
      exact hflow
  | createUserError hflow =>
      rw [flow_showResult]
      exact hflow
  | setDataResponse hflow =>
      rw [flow_showResult]
      exact hflow
  | _ => rfl

/-- **The app refines the sign-up flow.** -/
def refinesFlow : Refines machine SignUpFlow.machine where
  Ok _ := True
  proj := flow
  act := flowAction
  ok_step _ _ _ _ _ := trivial
  step _ _ _ _ hstep := flow_step (step_of_machine hstep)

/-- The app refines the registry. -/
noncomputable def refinesRegistry : Refines machine SignUpFlow.registryMachine :=
  refinesFlow.trans SignUpFlow.refinesRegistry

section Runs

variable {keychain : Option User} {keychainError : Option NSError} {accounts : Accounts}
  {firestore : Firestore} {actions : List Action} {s : App}

theorem flow_run
    (hrun : machine.run (coldStart keychain keychainError accounts firestore) actions = some s) :
    SignUpFlow.machine.run (.initial accounts firestore)
      (refinesFlow.acts (coldStart keychain keychainError accounts firestore) actions)
        = some s.flow := by
  have hflow := refinesFlow.run trivial hrun
  rwa [show refinesFlow.proj (coldStart keychain keychainError accounts firestore)
    = .initial accounts firestore from flow_launch _ _ _ _] at hflow

theorem flow_inv
    (hrun : machine.run (coldStart keychain keychainError accounts firestore) actions = some s) :
    s.flow.Inv :=
  SignUpFlow.inv_run (SignUpFlow.inv_initial accounts firestore) (flow_run hrun)

/-- **An attempt of the app ends once**, and no uid is registered by two of them. -/
theorem registry_sound
    (hrun : machine.run (coldStart keychain keychainError accounts firestore) actions = some s) :
    s.flow.registry.Sound Outcome.uid? := by
  have hflow : (coldStart keychain keychainError accounts firestore).flow
      = .initial accounts firestore := flow_launch _ _ _ _
  have hinv : (coldStart keychain keychainError accounts firestore).flow.Inv := by
    rw [hflow]
    exact SignUpFlow.inv_initial accounts firestore
  have hstart : (coldStart keychain keychainError accounts firestore).flow.registry.Sound
      Outcome.uid? := by
    refine Tasks.sound_of_ended_eq_empty ?_
    rw [hflow]
    ext ⟨k, o⟩
    cases o <;> simp [SignUpFlow.registry, SignUpFlow.Ended, SignUpFlow.initial]
  exact Tasks.sound_run (refinesRegistry.run ⟨trivial, hinv⟩ hrun) hstart

/-- An attempt of the app that succeeds. -/
theorem registry_sound_sampleSignUp :
    ∃ s, machine.run noOneLoggedIn sampleSignUp = some s ∧
      (0, .registered "uid1") ∈ s.flow.registry.ended ∧ s.flow.registry.Sound Outcome.uid? := by
  obtain ⟨s, hrun, hs⟩ := Machine.exists_run_of_any machine noOneLoggedIn sampleSignUp
    (fun s => decide ((0, .success "Success") ∈ s.flow.completed ∧ (0, "uid1") ∈ s.flow.returned))
    (by decide)
  obtain ⟨hsuccess, huid⟩ := of_decide_eq_true hs
  exact ⟨s, hrun, ⟨⟨_, hsuccess⟩, huid⟩, registry_sound hrun⟩

/-- **A reported success outlives the process.** Its account and its document are there in every
    later state of the app. -/
theorem success_outlives_process
    (hrun : machine.run (coldStart keychain keychainError accounts firestore) actions = some s)
    {k : Nat} {value : String} (hk : (k, .success value) ∈ s.flow.completed) :
    ∃ a uid, s.flow.attempts[k]? = some a ∧ (k, uid) ∈ s.flow.returned ∧
      ∀ actions' s', machine.run s actions' = some s' → s'.flow.Registered a uid := by
  obtain ⟨a, uid, ha, huid, -⟩ := (flow_inv hrun).records.registered hk
  refine ⟨a, uid, ha, huid, fun actions' s' hrun' => ?_⟩
  exact SignUpFlow.registered_run (flow_inv hrun) (refinesFlow.run trivial hrun') hk ha huid

/-- The app is started again after a sign-up. -/
theorem success_outlives_process_sampleSignUp :
    ∃ s s', machine.run noOneLoggedIn sampleSignUp = some s ∧
      machine.run s [.launch none] = some s' ∧ ∃ a uid, s'.flow.Registered a uid := by
  obtain ⟨s, hrun, hs⟩ := Machine.exists_run_of_any machine noOneLoggedIn sampleSignUp
    (fun s => decide ((0, .success "Success") ∈ s.flow.completed)) (by decide)
  obtain ⟨a, uid, -, -, hlater⟩ := success_outlives_process hrun (of_decide_eq_true hs)
  exact ⟨s, _, hrun, rfl, a, uid, hlater [.launch none] _ rfl⟩

end Runs

end Harusali.App
