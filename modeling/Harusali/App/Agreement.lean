import Harusali.App.Shell
import Harusali.SignUp.Screen

set_option autoImplicit false

/-! # Screen and session

The comment above `checkIfUserLoggedIn`: logged in, the main screen; not logged in, the sign-in
screen. Nothing ties the two together, every handler updates one of them on its own, and three
steps leave the sign-in flow standing over an open session (`Breaks`). Three others bring the
two back together (`Repairs`). At rest, screen and session agree exactly when no break is left
unrepaired. -/

namespace Harusali.App

/-- The sign-in flow is over `MainVC` if and only if nobody is logged in. -/
def Agree (s : App) : Prop := s.presented.isSome = true ↔ s.auth.currentUser = none

/-- No request is in flight and no block is queued. -/
structure Quiescent (s : App) : Prop where
  signIns : s.signIns = []
  createUsers : s.flow.createUsers = []
  setDatas : s.flow.setDatas = []
  mainQueue : s.mainQueue = 0

/-- The steps that leave the sign-in flow over an open session: `createUser` logs the new account
    in and nothing dismisses the flow, `try?` drops the error of a `signOut` that failed, and the
    block queued at launch runs without checking again. -/
def Breaks (s : App) : Action → Prop
  | .createUserResponse _ (.success _) => s.presented.isSome = true
  | .tapLogout keychainError => s.auth.currentUser ≠ none ∧ keychainError ≠ none
  | .runMainQueue => s.auth.currentUser ≠ none
  | _ => False

/-- The steps that bring screen and session together whatever came before. -/
def Repairs (s : App) : Action → Prop
  | .launch _ => True
  | .signInResponse _ (.success _) => True
  | .tapLogout keychainError => s.auth.currentUser = none ∨ keychainError = none
  | _ => False

theorem lift_breaks : refinesShell.lift Shell.Breaks = Breaks := by
  funext s action
  cases action with
  | createUserResponse r response =>
      cases response <;>
        simp [Refines.lift, refinesShell, shellAction, Shell.Breaks, Breaks, shell]
  | signInResponse r response =>
      cases response <;> simp [Refines.lift, refinesShell, shellAction, Shell.Breaks, Breaks]
  | tapLogout keychainError =>
      have hthrow := not_congr (s.auth.signOut_ok_iff keychainError)
      simp only [Bool.not_eq_true, not_or] at hthrow
      simp only [Refines.lift, refinesShell, shellAction, Option.some.injEq, exists_eq_left',
        Shell.Breaks, Breaks, shell, hthrow]
      exact propext ⟨fun h => h.1, fun h => ⟨h, h.1⟩⟩
  | _ => simp [Refines.lift, refinesShell, shellAction, Shell.Breaks, Breaks, shell]

theorem lift_repairs : refinesShell.lift Shell.Repairs = Repairs := by
  funext s action
  cases action with
  | createUserResponse r response =>
      cases response <;> simp [Refines.lift, refinesShell, shellAction, Shell.Repairs, Repairs]
  | signInResponse r response =>
      cases response <;> simp [Refines.lift, refinesShell, shellAction, Shell.Repairs, Repairs]
  | tapLogout keychainError =>
      simp [Refines.lift, refinesShell, shellAction, Shell.Repairs, Repairs,
        FIRAuth.signOut_ok_iff]
  | _ => simp [Refines.lift, refinesShell, shellAction, Shell.Repairs, Repairs]

section Runs

variable {keychain : Option User} {keychainError : Option NSError} {accounts : Accounts}
  {firestore : Firestore} {actions : List Action} {s : App}

theorem coldStart_covered :
    (coldStart keychain keychainError accounts firestore).shell.Covered := by
  rw [coldStart, shell_launch]
  intro _ hnone
  simp only at hnone
  simp [hnone]

theorem coldStart_not_stale :
    ¬ (coldStart keychain keychainError accounts firestore).shell.Stale := by
  rw [coldStart, shell_launch]
  simp [Shell.Stale]

/-- In every reachable state, a main screen without a session is about to be covered. -/
theorem covered_run
    (hrun : machine.run (coldStart keychain keychainError accounts firestore) actions = some s) :
    s.shell.Covered :=
  Machine.run_preserves (fun _ _ _ hstep _ => Shell.covered_step hstep)
    (refinesShell.run trivial hrun) coldStart_covered

/-- The sign-in flow stands over an open session exactly when a break has not been repaired. -/
theorem stale_iff_since
    (hrun : machine.run (coldStart keychain keychainError accounts firestore) actions = some s) :
    s.shell.Stale ↔ Machine.Since Breaks Repairs
      (machine.trace (coldStart keychain keychainError accounts firestore) actions) := by
  rw [← lift_breaks, ← lift_repairs]
  exact refinesShell.latch_iff_since (fun _ _ _ => Shell.stale_step) trivial coldStart_not_stale
    hrun

/-- **Screen and session agree at rest** after a run without breaking steps, and after any run
    exactly when every breaking step has been followed by a repairing one. -/
theorem screen_agrees_with_session_iff
    (hrun : machine.run (coldStart keychain keychainError accounts firestore) actions = some s)
    (hquiet : s.Quiescent) :
    ((∀ t ∈ machine.trace (coldStart keychain keychainError accounts firestore) actions,
        ¬ Breaks t.1 t.2) → s.Agree) ∧
      (s.Agree ↔ ¬ Machine.Since Breaks Repairs
        (machine.trace (coldStart keychain keychainError accounts firestore) actions)) := by
  have hagree : s.Agree ↔ ¬ s.shell.Stale :=
    Shell.agree_iff_not_stale (covered_run hrun) hquiet.mainQueue
  rw [hagree, stale_iff_since hrun]
  exact ⟨fun hnone => Machine.not_since_of_forall hnone, Iff.rfl⟩

end Runs

/-! ## A sign-up that is never followed by a login

Every response of this run is a success and every tap is where the alerts lead the user, back to the
sign-in screen. The account created on the way is logged in all the while. -/

def noOneLoggedIn : App :=
  coldStart none none SignUpScreen.noAccounts SignUpScreen.noDocuments

def sampleSignUp : List Action :=
  [.runMainQueue, .tapSignUpBT, .editSignUp .nameTextField "user",
   .editSignUp .emailTextField "user@example.com", .editSignUp .passWordTextField "secret",
   .signUpBtTap, .createUserResponse SignUpScreen.sampleRequest (.success "uid1"),
   .setDataResponse (SignUpFlow.profileRequest SignUpScreen.sampleRequest "uid1") none, .tapAlert 1]

def sampleSignIn : List Action :=
  [.editSignIn .idTextField "user@example.com", .editSignIn .passWordTextField "secret", .tapLoginBT,
   .signInResponse ⟨"user@example.com", "secret", 0⟩ (.success "uid1")]

/-- Whether nothing is pending, evaluated. -/
def isQuiescent (s : App) : Bool :=
  decide (s.signIns = [] ∧ s.flow.createUsers = [] ∧ s.flow.setDatas = [] ∧ s.mainQueue = 0)

theorem quiescent_of_isQuiescent {s : App} (h : s.isQuiescent = true) : s.Quiescent := by
  obtain ⟨hsignIns, hcreateUsers, hsetDatas, hqueue⟩ := of_decide_eq_true h
  exact ⟨hsignIns, hcreateUsers, hsetDatas, hqueue⟩

theorem signUp_leaves_signIn_over_session :
    ∃ s, machine.run noOneLoggedIn sampleSignUp = some s ∧ s.Quiescent ∧ s.front = .signIn ∧
      s.auth.currentUser = some ⟨"uid1"⟩ ∧ ¬ s.Agree := by
  obtain ⟨s, hrun, hs⟩ := Machine.exists_run_of_any machine noOneLoggedIn sampleSignUp
    (fun s => s.isQuiescent && decide (s.front = .signIn ∧ s.presented.isSome = true ∧
      s.auth.currentUser = some ⟨"uid1"⟩)) (by decide)
  obtain ⟨hquiet, hs⟩ := Bool.and_eq_true_iff.1 hs
  obtain ⟨hfront, hup, huser⟩ := of_decide_eq_true hs
  refine ⟨s, hrun, quiescent_of_isQuiescent hquiet, hfront, huser, fun hagree => ?_⟩
  exact absurd (hagree.1 hup) (by simp [huser])

/-- The same user then logs in, which repairs the break. -/
theorem screen_agrees_with_session_iff_sampleSignIn :
    ∃ s, machine.run noOneLoggedIn (sampleSignUp ++ sampleSignIn) = some s ∧ s.Quiescent ∧ s.Agree ∧
      ¬ Machine.Since Breaks Repairs (machine.trace noOneLoggedIn (sampleSignUp ++ sampleSignIn)) := by
  obtain ⟨s, hrun, hs⟩ := Machine.exists_run_of_any machine noOneLoggedIn (sampleSignUp ++ sampleSignIn)
    (fun s => s.isQuiescent && decide (s.presented.isSome = false ∧
      s.auth.currentUser = some ⟨"uid1"⟩)) (by decide)
  obtain ⟨hquiet, hs⟩ := Bool.and_eq_true_iff.1 hs
  obtain ⟨hdown, huser⟩ := of_decide_eq_true hs
  have hagree : s.Agree := by simp [Agree, hdown, huser]
  have hquiescent := quiescent_of_isQuiescent hquiet
  exact ⟨s, hrun, hquiescent, hagree, (screen_agrees_with_session_iff hrun hquiescent).2.1 hagree⟩

end Harusali.App
