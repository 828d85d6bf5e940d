import Harusali.App.Basic

set_option autoImplicit false

/-! # What a step of the app can do

`Step` lists, action by action, when the machine accepts an action and the state it leads to,
with the handlers and closures evaluated as far as their outcome. Every result about the app is
a case analysis on it. -/

namespace Harusali.App

/-! ## What is in front -/

theorem front_eq_main_iff {s : App} : s.front = .main ↔ s.presented = none := by
  unfold front
  split <;> simp_all

theorem front_eq_signIn_iff {s : App} :
    s.front = .signIn ↔ s.presented.isSome = true ∧ s.alert = none ∧ s.viewControllers = [] := by
  unfold front
  split <;> simp_all

theorem front_eq_signUp_iff {s : App} {i : Nat} :
    s.front = .signUp i ↔
      s.presented.isSome = true ∧ s.alert = none ∧ s.viewControllers.head? = some i := by
  unfold front
  split <;> simp_all

theorem front_eq_alert_iff {s : App} {i : Nat} {alert : UIAlertController SignUpVC.Method} :
    s.front = .alert i alert ↔ s.presented.isSome = true ∧ s.alert = some (i, alert) := by
  unfold front
  split <;> simp_all

/-! ## Steps -/

/-- All the check at launch does is queue the presentation. -/
theorem checkIfUserLoggedIn_eq (s : App) :
    s.checkIfUserLoggedIn
      = { s with mainQueue := s.mainQueue + if s.auth.currentUser = none then 1 else 0 } := by
  unfold checkIfUserLoggedIn
  split <;> rfl

/-- Showing the outcome of a response puts an alert on the screen at most. -/
theorem showResult_frame (s : App) (effect : Effect) :
    ∃ alert, s.showResult effect = { s with alert } := by
  cases effect with
  | completion c result =>
      simp only [showResult, presentAlert]
      split
      · exact ⟨_, rfl⟩
      · exact ⟨s.alert, rfl⟩
  | setData r => exact ⟨s.alert, rfl⟩
  | doNothing => exact ⟨s.alert, rfl⟩

inductive Step (s : App) : Action → App → Prop
  | launch (keychainError : Option NSError) :
      Step s (.launch keychainError)
        (App.launch s.auth.keychain keychainError s.flow.terminate s.signInCalls)
  | runMainQueue {n : Nat} (hqueue : s.mainQueue = n + 1) :
      Step s .runMainQueue (presentLogin { s with mainQueue := n })
  | tapLogout (keychainError : Option NSError) (hfront : s.front = .main) :
      Step s (.tapLogout keychainError) (s.didTapLogout keychainError)
  | editSignIn (field : SignInVC.Field) (text : String) (hfront : s.front = .signIn) :
      Step s (.editSignIn field text) { s with loginVC := s.loginVC.edit field text }
  | tapLoginBT {r : SignInRequest} (hfront : s.front = .signIn)
      (hr : s.loginVC.tapLoginBT s.signInCalls = some r) :
      Step s .tapLoginBT { s with signIns := s.signIns ++ [r], signInCalls := s.signInCalls + 1 }
  | tapSignUpBT (hfront : s.front = .signIn) : Step s .tapSignUpBT s.tapSignUpBT
  | editSignUp {i : Nat} (field : SignUpVC.Field) (text : String) (hfront : s.front = .signUp i) :
      Step s (.editSignUp field text)
        { s with signUpVCs := s.signUpVCs.modify i (·.edit field text) }
  | signUpBtTap {i : Nat} {fields : SignUpVC} (hfront : s.front = .signUp i)
      (hfields : s.signUpVCs[i]? = some fields) :
      Step s .signUpBtTap { s with flow := s.flow.tapSignUp i fields }
  | tapBack {i : Nat} (hfront : s.front = .signUp i) : Step s .tapBack s.popViewController
  | tapAlert {button i : Nat} {alert : UIAlertController SignUpVC.Method}
      {action : UIAlertAction SignUpVC.Method} (hfront : s.front = .alert i alert)
      (haction : alert.actions[button]? = some action) :
      Step s (.tapAlert button) (perform { s with alert := none } action.handler)
  | signInSuccess {r : SignInRequest} {uid : Uid} (hr : r ∈ s.signIns)
      (haccount : ⟨uid, r.withEmail, r.password⟩ ∈ s.flow.accounts.all) :
      Step s (.signInResponse r (.success uid))
        { s with
          auth := ⟨some ⟨uid⟩, some ⟨uid⟩⟩
          loginVC := {}
          signIns := s.signIns.erase r
          presented := none
          alert := none }
  | signInError {r : SignInRequest} {e : NSError} (hr : r ∈ s.signIns) :
      Step s (.signInResponse r (.error e))
        { s with loginVC := {}, signIns := s.signIns.erase r }
  | createUserSuccess {r : CreateUserRequest} {uid : Uid} {flow : SignUpFlow}
      (hflow : s.flow.createUserResponse r (.success uid) = some flow) :
      Step s (.createUserResponse r (.success uid))
        (showResult { s with flow, auth := ⟨some ⟨uid⟩, some ⟨uid⟩⟩ }
          (.setData (SignUpFlow.profileRequest r uid)))
  | createUserError {r : CreateUserRequest} {e : NSError} {flow : SignUpFlow}
      (hflow : s.flow.createUserResponse r (.error e) = some flow) :
      Step s (.createUserResponse r (.error e))
        (showResult { s with flow } (.completion r.completion (.failure e)))
  | setDataResponse {r : SetDataRequest} {error : Option NSError} {flow : SignUpFlow}
      (hflow : s.flow.setDataResponse r error = some flow) :
      Step s (.setDataResponse r error) (showResult { s with flow } (r.closure error))

theorem step_of_signInResponse {s s' : App} {r : SignInRequest} {response : AuthResponse}
    (h : s.signInResponse r response = some s') : Step s (.signInResponse r response) s' := by
  unfold signInResponse at h
  split at h
  · next hr =>
      cases response with
      | error e =>
          obtain rfl := Option.some.inj h
          exact .signInError hr.1
      | success uid =>
          have haccount : ⟨uid, r.withEmail, r.password⟩ ∈ s.flow.accounts.all := by
            have := hr.2
            simp only [Accounts.signIn, Bool.and_eq_true, decide_eq_true_eq] at this
            exact this.2
          simp only [AuthResponse.authResult, AuthResponse.nsError,
            FIRAuth.signInFlowCallback_success] at h
          obtain rfl := Option.some.inj h
          exact .signInSuccess hr.1 haccount
  · exact absurd h (by simp)

theorem step_of_createUserResponse {s s' : App} {r : CreateUserRequest} {response : AuthResponse}
    (h : s.createUserResponse r response = some s') :
    Step s (.createUserResponse r response) s' := by
  obtain ⟨flow, hflow, rfl⟩ := Option.map_eq_some_iff.1 h
  cases response with
  | error e => exact .createUserError hflow
  | success uid =>
      simp only [AuthResponse.authResult, AuthResponse.nsError, FIRAuth.signInFlowCallback_success]
      exact .createUserSuccess hflow

theorem step_of_userStep {s s' : App} {action : Action} (h : s.userStep action = some s') :
    Step s action s' := by
  unfold userStep at h
  split at h
  case h_1 keychainError =>
      split at h
      · next hfront => obtain rfl := Option.some.inj h; exact .tapLogout keychainError hfront
      · exact absurd h (by simp)
  case h_2 field text =>
      split at h
      · next hfront => obtain rfl := Option.some.inj h; exact .editSignIn field text hfront
      · exact absurd h (by simp)
  case h_3 =>
      split at h
      · next hfront =>
          obtain ⟨r, hr, rfl⟩ := Option.map_eq_some_iff.1 h
          exact .tapLoginBT hfront hr
      · exact absurd h (by simp)
  case h_4 =>
      split at h
      · next hfront => obtain rfl := Option.some.inj h; exact .tapSignUpBT hfront
      · exact absurd h (by simp)
  case h_5 field text =>
      split at h
      · next i hfront => obtain rfl := Option.some.inj h; exact .editSignUp field text hfront
      · exact absurd h (by simp)
  case h_6 =>
      split at h
      · next i hfront =>
          obtain ⟨fields, hfields, rfl⟩ := Option.map_eq_some_iff.1 h
          exact .signUpBtTap hfront hfields
      · exact absurd h (by simp)
  case h_7 =>
      split at h
      · next i hfront => obtain rfl := Option.some.inj h; exact .tapBack hfront
      · exact absurd h (by simp)
  case h_8 button =>
      split at h
      · next i alert hfront =>
          obtain ⟨action, haction, rfl⟩ := Option.map_eq_some_iff.1 h
          exact .tapAlert hfront haction
      · exact absurd h (by simp)
  case h_9 => exact absurd h (by simp)

/-- **Inversion of the app's step function.** -/
theorem step_of_machine {s s' : App} {action : Action} (h : machine.step s action = some s') :
    Step s action s' := by
  cases action with
  | launch keychainError =>
      obtain rfl := Option.some.inj h
      exact .launch keychainError
  | runMainQueue =>
      simp only [machine, step] at h
      split at h
      · exact absurd h (by simp)
      · next n hqueue =>
          obtain rfl := Option.some.inj h
          exact .runMainQueue hqueue
  | signInResponse r response => exact step_of_signInResponse h
  | createUserResponse r response => exact step_of_createUserResponse h
  | setDataResponse r error =>
      obtain ⟨flow, hflow, rfl⟩ := Option.map_eq_some_iff.1 h
      exact .setDataResponse hflow
  | tapLogout keychainError => exact step_of_userStep h
  | editSignIn field text => exact step_of_userStep h
  | tapLoginBT => exact step_of_userStep h
  | tapSignUpBT => exact step_of_userStep h
  | editSignUp field text => exact step_of_userStep h
  | signUpBtTap => exact step_of_userStep h
  | tapBack => exact step_of_userStep h
  | tapAlert button => exact step_of_userStep h

end Harusali.App
