import Harusali.Controller.SignInVC
import Harusali.SignUp.Flow

set_option autoImplicit false

/-! # The app

One process of the app and what outlives it: the session (`auth`), the sign-up flow with the two
remote stores, the sign-in requests in flight, and the screens. `MainVC` is the root of the
window; over it the navigation controller with the sign-in screen may be presented, with sign-up
screens pushed on top of it and an alert above those. A tap or an edit reaches the front screen
only.

Of UIKit this assumes that `present` puts the navigation controller over `MainVC` and does
nothing when it is there already, that `dismiss` from the sign-in screen removes it together
with an alert above it, and that an alert presented by a controller that is not on screen, or is
below another alert, is not shown. -/

namespace Harusali

structure App where
  auth : FIRAuth
  flow : SignUpFlow
  signIns : List SignInRequest
  /-- How many `signIn` calls have been made. -/
  signInCalls : Nat
  /-- The presentations that `checkIfUserLoggedIn` has queued and that have not run. -/
  mainQueue : Nat
  /-- Whether `navController` is presented over `MainVC`, and in which style it was. -/
  presented : Option UIModalPresentationStyle
  /-- `navController.modalPresentationStyle`. -/
  modalPresentationStyle : UIModalPresentationStyle
  loginVC : SignInVC
  /-- The `SignUpVC`s made in this process; a controller is named by its index. -/
  signUpVCs : List SignUpVC
  /-- The `SignUpVC`s pushed on `loginVC`, topmost first. -/
  viewControllers : List Nat
  /-- The alert on screen, with the `SignUpVC` that presents it. -/
  alert : Option (Nat × UIAlertController SignUpVC.Method)

namespace App

/-- What the user sees. -/
inductive Screen where
  | main
  | signIn
  | signUp (signUpVC : Nat)
  | alert (signUpVC : Nat) (alert : UIAlertController SignUpVC.Method)
  deriving DecidableEq, Repr

def front (s : App) : Screen :=
  match s.presented, s.alert, s.viewControllers with
  | none, _, _ => .main
  | some _, some (signUpVC, alert), _ => .alert signUpVC alert
  | some _, none, [] => .signIn
  | some _, none, signUpVC :: _ => .signUp signUpVC

/-! ## UIKit -/

/-- `present(navController, animated: true)` on `MainVC`. -/
def presentNavController (s : App) : App :=
  { s with presented := s.presented.or (some s.modalPresentationStyle) }

/-- `dismiss(animated: true)` on `loginVC`. -/
def dismiss (s : App) : App :=
  { s with presented := none, alert := none }

/-- `present(alert, animated: false)` on the `SignUpVC` of this number. -/
def presentAlert (s : App) (signUpVC : Nat) (alert : UIAlertController SignUpVC.Method) : App :=
  if s.front = .signUp signUpVC then { s with alert := some (signUpVC, alert) } else s

/-! ## `MainVC` -/

def checkIfUserLoggedIn (s : App) : App :=
  if s.auth.currentUser = none then { s with mainQueue := s.mainQueue + 1 } else s

/-- The block that `checkIfUserLoggedIn` queues. -/
def presentLogin (s : App) : App :=
  presentNavController { s with modalPresentationStyle := .fullScreen }

/-- `didTapLogout()`, with what the keychain reports to `signOut`; `try?` drops the error. -/
def didTapLogout (s : App) (keychainError : Option NSError) : App :=
  presentNavController
    { s with auth := (s.auth.signOut keychainError).1, modalPresentationStyle := .fullScreen }

/-- A new process: `AppDelegate` puts a new `MainVC` in the window, whose `viewDidLoad` checks for a
    session. The keychain and the remote stores are all that is left of the process before. -/
def launch (keychain : Option User) (keychainError : Option NSError) (flow : SignUpFlow)
    (signInCalls : Nat) : App :=
  checkIfUserLoggedIn
    { auth := .initWithAPIKey keychain keychainError
      flow
      signIns := []
      signInCalls
      mainQueue := 0
      presented := none
      modalPresentationStyle := .automatic
      loginVC := {}
      signUpVCs := []
      viewControllers := []
      alert := none }

/-- The first process of a run. -/
def coldStart (keychain : Option User) (keychainError : Option NSError) (accounts : Accounts)
    (firestore : Firestore) : App :=
  launch keychain keychainError (.initial accounts firestore) 0

/-! ## `SignInVC` -/

/-- `tapLoginBT(_:)`. -/
def tapLoginBT (s : App) : Option App :=
  (s.loginVC.tapLoginBT s.signInCalls).map fun r =>
    { s with signIns := s.signIns ++ [r], signInCalls := s.signInCalls + 1 }

/-- `tapSignUpBT(_:)`. -/
def tapSignUpBT (s : App) : App :=
  { s with
    signUpVCs := s.signUpVCs ++ [{}]
    viewControllers := s.signUpVCs.length :: s.viewControllers
    modalPresentationStyle := .fullScreen }

/-- The service answers a `signIn` request and its completion block runs. -/
def signInResponse (s : App) (r : SignInRequest) (response : AuthResponse) : Option App :=
  if r ∈ s.signIns ∧ s.flow.accounts.signIn r.withEmail r.password response then
    let (auth, user, error) := s.auth.signInFlowCallback response.authResult response.nsError none
    let (loginVC, dismissed) := s.loginVC.closure user error
    -- `dismiss` does nothing new where the flow has been dismissed before
    let s := { s with auth, loginVC, signIns := s.signIns.erase r }
    some (if dismissed then s.dismiss else s)
  else none

/-! ## `SignUpVC` -/

/-- `signUpBtTap(_:)` on the `SignUpVC` of this number. -/
def signUpBtTap (s : App) (signUpVC : Nat) : Option App :=
  s.signUpVCs[signUpVC]?.map fun fields =>
    { s with flow := s.flow.tapSignUp signUpVC fields }

/-- The closure of `signUpBtTap`, if the completion block that ran has called it. -/
def showResult (s : App) : Effect → App
  | .completion c result => s.presentAlert c.signUpVC (SignUpVC.completionAlert result)
  | .setData _ => s
  | .doNothing => s

/-- The service answers a `createUser` request and its completion block runs. A created account is
    signed in before that. -/
def createUserResponse (s : App) (r : CreateUserRequest) (response : AuthResponse) : Option App :=
  (s.flow.createUserResponse r response).map fun flow =>
    let (auth, result, error) := s.auth.signInFlowCallback response.authResult response.nsError none
    showResult { s with flow, auth } (r.closure result error)

/-- Firestore answers a `setData` request and its completion block runs. -/
def setDataResponse (s : App) (r : SetDataRequest) (error : Option NSError) : Option App :=
  (s.flow.setDataResponse r error).map fun flow => showResult { s with flow } (r.closure error)

/-- `popViewController(animated: true)`; the root stays. -/
def popViewController (s : App) : App :=
  { s with viewControllers := s.viewControllers.tail }

/-- `backToLogin()`. -/
def backToLogin (s : App) : App :=
  { s.popViewController with modalPresentationStyle := .automatic }

/-- The handler of an alert button. -/
def perform (s : App) : Option SignUpVC.Method → App
  | none => s
  | some .backToLogin => s.backToLogin

/-- A tap on the button of this index of the alert on screen, which closes it. -/
def tapAlert (s : App) (alert : UIAlertController SignUpVC.Method) (button : Nat) : Option App :=
  alert.actions[button]?.map fun action => { s with alert := none }.perform action.handler

/-! ## The machine -/

inductive Action where
  | launch (keychainError : Option NSError)
  | runMainQueue
  | tapLogout (keychainError : Option NSError)
  | editSignIn (field : SignInVC.Field) (text : String)
  | tapLoginBT
  | tapSignUpBT
  | editSignUp (field : SignUpVC.Field) (text : String)
  | signUpBtTap
  | tapBack
  | tapAlert (button : Nat)
  | signInResponse (r : SignInRequest) (response : AuthResponse)
  | createUserResponse (r : CreateUserRequest) (response : AuthResponse)
  | setDataResponse (r : SetDataRequest) (error : Option NSError)
  deriving DecidableEq, Repr

/-- What the user does, which goes to the front screen. -/
def userStep (s : App) : Action → Option App
  | .tapLogout keychainError =>
      match s.front with
      | .main => some (s.didTapLogout keychainError)
      | _ => none
  | .editSignIn field text =>
      match s.front with
      | .signIn => some { s with loginVC := s.loginVC.edit field text }
      | _ => none
  | .tapLoginBT =>
      match s.front with
      | .signIn => s.tapLoginBT
      | _ => none
  | .tapSignUpBT =>
      match s.front with
      | .signIn => some s.tapSignUpBT
      | _ => none
  | .editSignUp field text =>
      match s.front with
      | .signUp i => some { s with signUpVCs := s.signUpVCs.modify i (·.edit field text) }
      | _ => none
  | .signUpBtTap =>
      match s.front with
      | .signUp i => s.signUpBtTap i
      | _ => none
  | .tapBack =>
      match s.front with
      | .signUp _ => some s.popViewController
      | _ => none
  | .tapAlert button =>
      match s.front with
      | .alert _ alert => s.tapAlert alert button
      | _ => none
  | _ => none

def step (s : App) : Action → Option App
  -- the requests in flight and all screens go with the old process
  | .launch keychainError =>
      some (launch s.auth.keychain keychainError s.flow.terminate s.signInCalls)
  | .runMainQueue =>
      match s.mainQueue with
      | 0 => none
      | n + 1 => some { s with mainQueue := n }.presentLogin
  | .signInResponse r response => s.signInResponse r response
  | .createUserResponse r response => s.createUserResponse r response
  | .setDataResponse r error => s.setDataResponse r error
  | action => s.userStep action

def machine : Machine App Action := ⟨step⟩

end App

end Harusali
