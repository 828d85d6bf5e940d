import Harusali.App.Agreement
import Harusali.App.Attempts
import Harusali.App.Session

set_option autoImplicit false

/-! # Relaunch

What a new process finds: the session as the keychain keeps it, and a screen that fits it. -/

namespace Harusali.App

/-! ## The session in the keychain -/

section Runs

variable {keychain : Option User} {accounts : Accounts} {firestore : Firestore}
  {actions : List Action} {s : App}

end Runs

/-! ## The screen after a relaunch -/

/-- A new process has no request in flight, shows the main screen, and has queued the sign-in flow
    if it found no session. -/
theorem launch_fields (keychain : Option User) (keychainError : Option NSError) (flow : SignUpFlow)
    (signInCalls : Nat) :
    let s := launch keychain keychainError flow signInCalls
    s.signIns = [] ∧ s.presented = none ∧
      s.mainQueue = if s.auth.currentUser = none then 1 else 0 := by
  rw [launch, checkIfUserLoggedIn_eq]
  simp

theorem step_runMainQueue {s : App} {n : Nat} (hqueue : s.mainQueue = n + 1) :
    machine.step s .runMainQueue = some (presentLogin { s with mainQueue := n }) := by
  simp [machine, step, hqueue]

theorem presented_presentLogin (s : App) : s.presentLogin.presented.isSome = true := by
  cases hpresented : s.presented <;> simp [presentLogin, presentNavController, hpresented]

/-- **A relaunch puts screen and session right**, from any state: once the presentation it may
    queue has run, nothing is pending and the two agree. -/
theorem relaunch_recovers (s : App) (keychainError : Option NSError) :
    ∃ actions t, machine.run s (.launch keychainError :: actions) = some t ∧
      (∀ a ∈ actions, a = .runMainQueue) ∧ t.Quiescent ∧ t.Agree := by
  obtain ⟨hsignIns, hpresented, hqueue⟩ :=
    launch_fields s.auth.keychain keychainError s.flow.terminate s.signInCalls
  have hflow := flow_launch s.auth.keychain keychainError s.flow.terminate s.signInCalls
  have hcreateUsers : s.flow.terminate.createUsers = [] := rfl
  have hsetDatas : s.flow.terminate.setDatas = [] := rfl
  have hlaunch : machine.step s (.launch keychainError)
      = some (launch s.auth.keychain keychainError s.flow.terminate s.signInCalls) := rfl
  generalize launch s.auth.keychain keychainError s.flow.terminate s.signInCalls = u at *
  by_cases huser : u.auth.currentUser = none
  · rw [if_pos huser] at hqueue
    refine ⟨[.runMainQueue], presentLogin { u with mainQueue := 0 }, ?_, by simp, ?_, ?_⟩
    · exact Machine.run_cons.2 ⟨u, hlaunch, Machine.run_singleton.2 (step_runMainQueue hqueue)⟩
    · rw [← hflow] at hcreateUsers hsetDatas
      exact ⟨hsignIns, hcreateUsers, hsetDatas, rfl⟩
    · exact ⟨fun _ => huser, fun _ => presented_presentLogin _⟩
  · rw [if_neg huser] at hqueue
    refine ⟨[], u, Machine.run_singleton.2 hlaunch, by simp, ?_, ?_⟩
    · rw [← hflow] at hcreateUsers hsetDatas
      exact ⟨hsignIns, hcreateUsers, hsetDatas, hqueue⟩
    · unfold Agree
      rw [hpresented]
      exact ⟨fun hup => absurd hup (by simp), fun hnone => absurd hnone huser⟩

end Harusali.App
