import Harusali.App.Step
import Harusali.Machine.Refinement

set_option autoImplicit false

/-! # The shell: session and screen

The app stripped to what its user relies on: whose session is open, and whether the sign-in flow
is up. The comment above `checkIfUserLoggedIn` relates the two (logged in: main screen; not
logged in: sign-in screen), and `Shell.Agree` is that relation. Every step of the app is a step
of the shell or invisible to it (`App.refinesShell`). -/

namespace Harusali

structure Shell where
  session : Option User
  /-- The sign-in navigation controller is presented over `MainVC`. -/
  loginUp : Bool
  /-- Presentations of it that are still queued. -/
  queued : Nat
  deriving DecidableEq, Repr

namespace Shell

inductive Action where
  | launch (restored : Option User)
  | present
  | signedIn (user : User)
  | signedUp (user : User)
  | logout (signedOut : Bool)
  deriving DecidableEq, Repr

def machine : Machine Shell Action where
  step s
    | .launch restored =>
        some { session := restored, loginUp := false, queued := if restored = none then 1 else 0 }
    | .present =>
        match s.queued with
        | 0 => none
        | n + 1 => some { s with loginUp := true, queued := n }
    | .signedIn user => some { s with session := some user, loginUp := false }
    | .signedUp user => some { s with session := some user }
    | .logout signedOut =>
        some { s with session := if signedOut then none else s.session, loginUp := true }

/-! ## When screen and session agree -/

def Agree (s : Shell) : Prop := s.loginUp = true ↔ s.session = none

/-- The sign-in flow is up although a session is open. -/
def Stale (s : Shell) : Prop := s.loginUp = true ∧ s.session ≠ none

/-- The main screen is up without a session only until a queued presentation has run. -/
def Covered (s : Shell) : Prop := s.loginUp = false → s.session = none → 0 < s.queued

/-- The steps that put the sign-in flow over an open session: an account is created while the flow
    is up, `signOut` throws, or the presentation queued at launch runs after a session has been
    opened. -/
def Breaks (s : Shell) : Action → Prop
  | .signedUp _ => s.loginUp = true
  | .logout signedOut => signedOut = false ∧ s.session ≠ none
  | .present => s.session ≠ none
  | .launch _ => False
  | .signedIn _ => False

/-- The steps after which screen and session agree, or will once the queue is empty. -/
def Repairs (_ : Shell) : Action → Prop
  | .launch _ => True
  | .signedIn _ => True
  | .logout signedOut => signedOut = true
  | .signedUp _ => False
  | .present => False

theorem agree_iff_not_stale {s : Shell} (hcovered : s.Covered) (hqueue : s.queued = 0) :
    s.Agree ↔ ¬ s.Stale := by
  obtain ⟨session, loginUp, queued⟩ := s
  cases loginUp with
  | true => simp [Agree, Stale]
  -- an uncovered main screen has a session, or a presentation would still be queued
  | false =>
      have hsession : session ≠ none := fun hnone => by
        have := hcovered rfl hnone
        omega
      simp [Agree, Stale, hsession]

theorem covered_step {s s' : Shell} {action : Action}
    (hstep : machine.step s action = some s') : s'.Covered := by
  intro hdown hnone
  cases action with
  | launch restored =>
      obtain rfl := Option.some.inj hstep
      obtain rfl : restored = none := hnone
      exact Nat.one_pos
  | present =>
      simp only [machine] at hstep
      split at hstep
      · exact absurd hstep (by simp)
      · obtain rfl := Option.some.inj hstep
        exact absurd hdown (by simp)
  | signedIn user =>
      obtain rfl := Option.some.inj hstep
      exact absurd hnone (by simp)
  | signedUp user =>
      obtain rfl := Option.some.inj hstep
      exact absurd hnone (by simp)
  | logout signedOut =>
      obtain rfl := Option.some.inj hstep
      exact absurd hdown (by simp)

/-- What one step does to staleness. -/
theorem stale_step {s s' : Shell} {action : Action} (hstep : machine.step s action = some s') :
    s'.Stale ↔ s.Breaks action ∨ (s.Stale ∧ ¬ s.Repairs action) := by
  cases action with
  | launch restored =>
      obtain rfl := Option.some.inj hstep
      simp [Stale, Breaks, Repairs]
  | present =>
      simp only [machine] at hstep
      split at hstep
      · exact absurd hstep (by simp)
      · obtain rfl := Option.some.inj hstep
        simp only [Stale, Breaks, Repairs]
        tauto
  | signedIn user =>
      obtain rfl := Option.some.inj hstep
      simp [Stale, Breaks, Repairs]
  | signedUp user =>
      obtain rfl := Option.some.inj hstep
      simpa [Stale, Breaks, Repairs] using fun hup _ => hup
  | logout signedOut =>
      obtain rfl := Option.some.inj hstep
      cases signedOut with
      | true => simp [Stale, Breaks, Repairs]
      | false =>
          simp [Stale, Breaks, Repairs]

/-! ## Who opens and closes the session -/

/-- What a step writes to the session. -/
def sessionWrite (_ : Shell) : Action → Option (Option User)
  | .launch restored => some restored
  | .signedIn user => some (some user)
  | .signedUp user => some (some user)
  | .logout true => some none
  | .logout false => none
  | .present => none

theorem session_step {s s' : Shell} {action : Action} (hstep : machine.step s action = some s') :
    s'.session = (s.sessionWrite action).getD s.session := by
  cases action with
  | present =>
      simp only [machine] at hstep
      split at hstep
      · exact absurd hstep (by simp)
      · obtain rfl := Option.some.inj hstep
        rfl
  | logout signedOut =>
      obtain rfl := Option.some.inj hstep
      cases signedOut <;> rfl
  | launch restored => obtain rfl := Option.some.inj hstep; rfl
  | signedIn user => obtain rfl := Option.some.inj hstep; rfl
  | signedUp user => obtain rfl := Option.some.inj hstep; rfl

end Shell

/-! ## The app is a shell -/

namespace App

def shell (s : App) : Shell where
  session := s.auth.currentUser
  loginUp := s.presented.isSome
  queued := s.mainQueue

/-- The step of the shell that an action of the app is. -/
def shellAction (s : App) : Action → Option Shell.Action
  | .launch keychainError => some (.launch (if keychainError = none then s.auth.keychain else none))
  | .runMainQueue => some .present
  | .tapLogout keychainError => some (.logout (s.auth.signOut keychainError).2)
  | .signInResponse _ (.success uid) => some (.signedIn ⟨uid⟩)
  | .createUserResponse _ (.success uid) => some (.signedUp ⟨uid⟩)
  | _ => none

theorem shell_launch (keychain : Option User) (keychainError : Option NSError) (flow : SignUpFlow)
    (signInCalls : Nat) :
    (launch keychain keychainError flow signInCalls).shell
      = { session := if keychainError = none then keychain else none
          loginUp := false
          queued := if (if keychainError = none then keychain else none) = none then 1 else 0 } := by
  rw [launch, checkIfUserLoggedIn_eq]
  simp [shell]

@[simp] theorem shell_presentAlert (s : App) (signUpVC : Nat)
    (alert : UIAlertController SignUpVC.Method) :
    (s.presentAlert signUpVC alert).shell = s.shell := by
  unfold presentAlert
  split <;> rfl

@[simp] theorem shell_showResult (s : App) (effect : Effect) :
    (s.showResult effect).shell = s.shell := by
  cases effect with
  | completion c result => exact shell_presentAlert ..
  | setData r => rfl
  | doNothing => rfl

theorem shell_presentNavController (s : App) :
    s.presentNavController.shell = { s.shell with loginUp := true } := by
  cases hpresented : s.presented <;> simp [presentNavController, shell, hpresented]

@[simp] theorem shell_perform (s : App) (method : Option SignUpVC.Method) :
    (s.perform method).shell = s.shell := by
  cases method <;> rfl

/-- Every step of the app is a step of the shell or leaves it alone. -/
theorem shell_step {s s' : App} {action : Action} (h : Step s action s') :
    Shell.machine.stepOpt s.shell (s.shellAction action) = some s'.shell := by
  cases h with
  | launch keychainError =>
      rw [shell_launch]
      rfl
  | runMainQueue hqueue =>
      rw [presentLogin, shell_presentNavController]
      simp [shellAction, Machine.stepOpt, Shell.machine, shell, hqueue]
  | tapLogout keychainError hfront =>
      rw [didTapLogout, shell_presentNavController]
      simp [shellAction, Machine.stepOpt, Shell.machine, shell, FIRAuth.signOut_currentUser]
  | editSignIn field text hfront => rfl
  | tapLoginBT hfront hr => rfl
  | tapSignUpBT hfront => rfl
  | editSignUp field text hfront => rfl
  | signUpBtTap hfront hfields => rfl
  | tapBack hfront => rfl
  | tapAlert hfront haction =>
      rw [shell_perform]
      rfl
  | signInSuccess hr haccount => rfl
  | signInError hr => rfl
  | createUserSuccess hflow =>
      rw [shell_showResult]
      rfl
  | createUserError hflow =>
      rw [shell_showResult]
      rfl
  | setDataResponse hflow =>
      rw [shell_showResult]
      rfl

/-- **The app refines the shell.** -/
def refinesShell : Refines machine Shell.machine where
  Ok _ := True
  proj := shell
  act := shellAction
  ok_step _ _ _ _ _ := trivial
  step _ _ _ _ hstep := shell_step (step_of_machine hstep)

end App

end Harusali
