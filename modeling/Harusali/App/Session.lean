import Harusali.App.Shell

set_option autoImplicit false

/-! # Whose session is open

The session is a register (`Machine.observe_eq_lastWrite`): launch, `signOut` and the successes
of `signIn` and `createUser` write it, nothing else touches it. No handler records or cancels
the requests it made, so a success is written whenever it arrives, whatever screen is up and
whoever is logged in by then. -/

namespace Harusali.App

/-- The user a response logs in. -/
def Action.logsIn : Action → Option User
  | .signInResponse _ (.success uid) => some ⟨uid⟩
  | .createUserResponse _ (.success uid) => some ⟨uid⟩
  | _ => none

/-- Where the user logs out or the process starts over. -/
def Action.Ends : Action → Prop
  | .tapLogout _ => True
  | .launch _ => True
  | _ => False

/-- The user logged in by the last success among these actions. -/
def lastLogin (actions : List Action) : Option User :=
  (actions.filterMap Action.logsIn).getLast?

/-- A response among whose requests in flight its own is; vacuous for other actions. -/
def Awaits (s : App) : Action → Prop
  | .signInResponse r _ => r ∈ s.signIns
  | .createUserResponse r _ => r ∈ s.flow.createUsers
  | _ => True

/-! ## `Auth.auth()` -/

theorem write_of_not_ends {s : App} {action : Action} (h : ¬ action.Ends) :
    refinesShell.write Shell.sessionWrite s action = action.logsIn.map some := by
  cases action with
  | launch keychainError => exact absurd trivial h
  | tapLogout keychainError => exact absurd trivial h
  | signInResponse r response => cases response <;> rfl
  | createUserResponse r response => cases response <;> rfl
  | _ => rfl

/-- A logout tap writes `nil` or nothing. -/
theorem write_tapLogout (s : App) (keychainError : Option NSError) :
    refinesShell.write Shell.sessionWrite s (.tapLogout keychainError) = some none ∨
      refinesShell.write Shell.sessionWrite s (.tapLogout keychainError) = none := by
  simp only [Refines.write, refinesShell, shellAction, Option.bind_some]
  cases (s.auth.signOut keychainError).2
  · exact Or.inr rfl
  · exact Or.inl rfl

section Runs

variable {actions : List Action} {s t : App}

theorem currentUser_run (hrun : machine.run s actions = some t) :
    t.auth.currentUser = (Machine.lastWrite (refinesShell.write Shell.sessionWrite)
      (machine.trace s actions)).getD s.auth.currentUser :=
  refinesShell.observe_eq_lastWrite Shell.session (fun _ _ _ => Shell.session_step) trivial hrun

/-- **Between logouts the session is that of the last success delivered.** -/
theorem currentUser_eq_lastLogin (hrun : machine.run s actions = some t)
    (hends : ∀ a ∈ actions, ¬ a.Ends) :
    t.auth.currentUser = (lastLogin actions).or s.auth.currentUser := by
  have hwrite : ∀ step ∈ machine.trace s actions,
      refinesShell.write Shell.sessionWrite step.1 step.2 = step.2.logsIn.map some :=
    fun step hstep => write_of_not_ends (hends _ (Machine.mem_of_mem_trace hrun hstep))
  rw [currentUser_run hrun, Machine.lastWrite_eq_of_action (v := fun a => a.logsIn.map some) hwrite,
    Machine.map_snd_trace hrun, ← List.map_filterMap, List.getLast?_map, lastLogin]
  cases (actions.filterMap Action.logsIn).getLast? <;> rfl

/-- Once nobody is logged in, only a success delivered later or a launch changes that. -/
theorem currentUser_stays_none (hrun : machine.run s actions = some t)
    (hnone : s.auth.currentUser = none) (hlogin : ∀ a ∈ actions, a.logsIn = none)
    (hlaunch : ∀ keychainError, .launch keychainError ∉ actions) : t.auth.currentUser = none := by
  rw [currentUser_run hrun, hnone]
  cases hlast : Machine.lastWrite (refinesShell.write Shell.sessionWrite)
    (machine.trace s actions) with
  | none => rfl
  | some user =>
      obtain ⟨⟨u, a⟩, hmem, hwrite⟩ := Machine.lastWrite_mem hlast
      have ha : a ∈ actions := Machine.mem_of_mem_trace hrun hmem
      by_cases hends : a.Ends
      -- of the two kinds of step that end a session only the logout is left, and it writes `nil`
      · cases a with
        | launch keychainError => exact absurd ha (hlaunch keychainError)
        | tapLogout keychainError =>
            rcases write_tapLogout u keychainError with h | h
            · rw [h] at hwrite
              exact (Option.some.inj hwrite).symm
            · rw [h] at hwrite
              exact absurd hwrite (by simp)
        | _ => exact absurd hends (by simp [Action.Ends])
      · rw [write_of_not_ends hends, hlogin a ha] at hwrite
        exact absurd hwrite (by simp)

/-! ## Behind the main screen no request is made -/

/-- With `MainVC` in front, and no block about to cover it, no step but a logout or a launch
    changes that or makes a request that could log someone in. -/
theorem step_behind_main {a : Action} {s' : App} (hstep : machine.step s a = some s')
    (hmain : s.presented = none) (hends : ¬ a.Ends) (hqueue : a ≠ .runMainQueue) :
    s'.presented = none ∧ s'.signIns ⊆ s.signIns ∧
      s'.flow.createUsers ⊆ s.flow.createUsers := by
  have hfront := front_eq_main_iff.2 hmain
  cases step_of_machine hstep with
  | launch keychainError => exact absurd trivial hends
  | tapLogout keychainError hfront => exact absurd trivial hends
  | runMainQueue hqueue' => exact absurd rfl hqueue
  | editSignIn field text h => simp [hfront] at h
  | tapLoginBT h hr => simp [hfront] at h
  | tapSignUpBT h => simp [hfront] at h
  | editSignUp field text h => simp [hfront] at h
  | signUpBtTap h hfields => simp [hfront] at h
  | tapBack h => simp [hfront] at h
  | tapAlert h haction => simp [hfront] at h
  | signInSuccess hr haccount => exact ⟨rfl, List.erase_subset, List.Subset.refl _⟩
  | signInError hr => exact ⟨hmain, List.erase_subset, List.Subset.refl _⟩
  | createUserSuccess hflow =>
      have hsubset := (SignUpFlow.step_of_createUserResponse hflow).createUsers_subset (by simp)
      exact ⟨hmain, List.Subset.refl _, hsubset⟩
  | createUserError hflow =>
      have hsubset := (SignUpFlow.step_of_createUserResponse hflow).createUsers_subset (by simp)
      obtain ⟨alert, heq⟩ := showResult_frame _ _
      rw [heq]
      exact ⟨hmain, List.Subset.refl _, hsubset⟩
  | setDataResponse hflow =>
      have hsubset := (SignUpFlow.step_of_setDataResponse hflow).createUsers_subset (by simp)
      obtain ⟨alert, heq⟩ := showResult_frame _ _
      rw [heq]
      exact ⟨hmain, List.Subset.refl _, hsubset⟩

theorem awaits_of_step {a : Action} {s' : App} (hstep : machine.step s a = some s') :
    s.Awaits a := by
  cases step_of_machine hstep with
  | signInSuccess hr haccount => exact hr
  | signInError hr => exact hr
  | createUserSuccess hflow =>
      cases SignUpFlow.step_of_createUserResponse hflow with
      | createUserSuccess hr hcreate => exact hr
  | createUserError hflow =>
      cases SignUpFlow.step_of_createUserResponse hflow with
      | createUserError hr => exact hr
  | _ => trivial

theorem Awaits.mono {a : Action} {s' : App} (h : s'.Awaits a) (hsignIns : s'.signIns ⊆ s.signIns)
    (hcreateUsers : s'.flow.createUsers ⊆ s.flow.createUsers) : s.Awaits a := by
  cases a with
  | signInResponse r response => exact hsignIns h
  | createUserResponse r response => exact hcreateUsers h
  | _ => trivial

/-- **Behind the main screen only earlier requests are answered.** -/
theorem awaits_of_behind_main (hrun : machine.run s actions = some t) (hmain : s.presented = none)
    (hends : ∀ a ∈ actions, ¬ a.Ends) (hqueue : .runMainQueue ∉ actions) :
    ∀ a ∈ actions, s.Awaits a := by
  induction actions generalizing s with
  | nil => simp
  | cons b rest ih =>
      obtain ⟨s', hstep, hrest⟩ := Machine.run_cons.1 hrun
      rw [List.forall_mem_cons] at hends
      obtain ⟨hb, hqueue'⟩ := not_or.1 (mt List.mem_cons.2 hqueue)
      obtain ⟨hmain', hsignIns, hcreateUsers⟩ := step_behind_main hstep hmain hends.1 (Ne.symm hb)
      rw [List.forall_mem_cons]
      exact ⟨awaits_of_step hstep,
        fun a ha => (ih hrest hmain' hends.2 hqueue' a ha).mono hsignIns hcreateUsers⟩

theorem step_login {r : SignInRequest} {uid : Uid} {s' : App}
    (hstep : machine.step s (.signInResponse r (.success uid)) = some s') :
    s'.presented = none ∧ s'.auth.currentUser = some ⟨uid⟩ := by
  cases step_of_machine hstep with
  | signInSuccess hr haccount => exact ⟨rfl, rfl⟩

theorem step_logout {keychainError : Option NSError} {s' : App}
    (hstep : machine.step s (.tapLogout keychainError) = some s') :
    s'.auth = (s.auth.signOut keychainError).1 := by
  cases step_of_machine hstep with
  | tapLogout keychainError hfront => rfl

/-- **Whose session is open after a login and after a logout.** A login shows the main screen; from
    then until the user logs out, the session is that of the last success delivered, of the login
    itself if there was none, and unless a queued presentation runs every response delivered
    answers a request made before the login. After a logout nobody is logged in until a success is
    delivered, whenever its request was made, and the last one is then the session. No other action
    changes the session. -/
theorem session_after_login_and_logout :
    (∀ r uid s', machine.step s (.signInResponse r (.success uid)) = some s' →
      s'.front = .main ∧ s'.auth.currentUser = some ⟨uid⟩ ∧
      ∀ actions t, machine.run s' actions = some t → (∀ a ∈ actions, ¬ a.Ends) →
        t.auth.currentUser = some ((lastLogin actions).getD ⟨uid⟩) ∧
        (.runMainQueue ∉ actions → ∀ a ∈ actions, s'.Awaits a)) ∧
    (∀ keychainError s', machine.step s (.tapLogout keychainError) = some s' →
      (s.auth.signOut keychainError).2 = true →
      ∀ actions t, machine.run s' actions = some t →
        (∀ keychainError, .launch keychainError ∉ actions) →
        ((∀ a ∈ actions, a.logsIn = none) → t.auth.currentUser = none) ∧
        ((∀ a ∈ actions, ¬ a.Ends) → t.auth.currentUser = lastLogin actions)) ∧
    (∀ a s', machine.step s a = some s' → ¬ a.Ends → a.logsIn = none →
      s'.auth.currentUser = s.auth.currentUser) := by
  refine ⟨?_, ?_, ?_⟩
  · intro r uid s' hstep
    obtain ⟨hmain, huser⟩ := step_login hstep
    refine ⟨front_eq_main_iff.2 hmain, huser, fun actions t hrun hends => ⟨?_, ?_⟩⟩
    · rw [currentUser_eq_lastLogin hrun hends, huser]
      cases lastLogin actions <;> rfl
    · exact awaits_of_behind_main hrun hmain hends
  · intro keychainError s' hstep hok actions t hrun hlaunch
    have hnone : s'.auth.currentUser = none := by
      rw [step_logout hstep, FIRAuth.signOut_currentUser, hok]
      rfl
    refine ⟨fun hlogin => currentUser_stays_none hrun hnone hlogin hlaunch, fun hends => ?_⟩
    rw [currentUser_eq_lastLogin hrun hends, hnone, Option.or_none]
  · intro a s' hstep hends hlogin
    have hends' : ∀ b ∈ [a], ¬ b.Ends := by simpa using hends
    rw [currentUser_eq_lastLogin (Machine.run_singleton.2 hstep) hends']
    simp [lastLogin, hlogin]

end Runs

/-! ## Two logins in flight -/

def accountA : Account := ⟨"uid1", "a@example.com", "secret"⟩

def accountB : Account := ⟨"uid2", "b@example.com", "hidden"⟩

def loginA : SignInRequest := ⟨accountA.email, accountA.password, 0⟩

def loginB : SignInRequest := ⟨accountB.email, accountB.password, 1⟩

/-- A first launch with two accounts registered and nobody logged in. -/
def twoAccounts : App :=
  coldStart none none ⟨[accountA, accountB], by decide, by decide⟩ ⟨fun _ => none⟩

/-- Both accounts are tried before the service answers. -/
def twoLogins : List Action :=
  [.runMainQueue,
   .editSignIn .idTextField accountA.email, .editSignIn .passWordTextField accountA.password,
   .tapLoginBT,
   .editSignIn .idTextField accountB.email, .editSignIn .passWordTextField accountB.password,
   .tapLoginBT]

/-- A is logged in and the answer for B, arriving late, replaces the session; or A has logged out
    again and it reopens one. -/
theorem late_response_replaces_and_reopens :
    (∃ s t, machine.run twoAccounts
        (twoLogins ++ [.signInResponse loginA (.success "uid1")]) = some s ∧
      s.front = .main ∧ s.auth.currentUser = some ⟨"uid1"⟩ ∧ loginB ∈ s.signIns ∧
      machine.run s [.signInResponse loginB (.success "uid2")] = some t ∧
      t.auth.currentUser = some ⟨"uid2"⟩) ∧
    (∃ s t, machine.run twoAccounts
        (twoLogins ++ [.signInResponse loginA (.success "uid1"), .tapLogout none]) = some s ∧
      s.auth.currentUser = none ∧ loginB ∈ s.signIns ∧
      machine.run s [.signInResponse loginB (.success "uid2")] = some t ∧
      t.auth.currentUser = some ⟨"uid2"⟩) := by
  refine ⟨?_, ?_⟩
  · obtain ⟨s, hrun, hs⟩ := Machine.exists_run_of_any machine twoAccounts
      (twoLogins ++ [.signInResponse loginA (.success "uid1")])
      (fun s => decide (s.front = .main ∧ s.auth.currentUser = some ⟨"uid1"⟩ ∧
        loginB ∈ s.signIns ∧
        (machine.run s [.signInResponse loginB (.success "uid2")]).any
          (fun t => decide (t.auth.currentUser = some ⟨"uid2"⟩)) = true)) (by decide)
    obtain ⟨hfront, huser, hloginB, hlate⟩ := of_decide_eq_true hs
    obtain ⟨t, hrun', ht⟩ := Machine.exists_run_of_any machine s _ _ hlate
    exact ⟨s, t, hrun, hfront, huser, hloginB, hrun', of_decide_eq_true ht⟩
  · obtain ⟨s, hrun, hs⟩ := Machine.exists_run_of_any machine twoAccounts
      (twoLogins ++ [.signInResponse loginA (.success "uid1"), .tapLogout none])
      (fun s => decide (s.auth.currentUser = none ∧ loginB ∈ s.signIns ∧
        (machine.run s [.signInResponse loginB (.success "uid2")]).any
          (fun t => decide (t.auth.currentUser = some ⟨"uid2"⟩)) = true)) (by decide)
    obtain ⟨huser, hloginB, hlate⟩ := of_decide_eq_true hs
    obtain ⟨t, hrun', ht⟩ := Machine.exists_run_of_any machine s _ _ hlate
    exact ⟨s, t, hrun, huser, hloginB, hrun', of_decide_eq_true ht⟩

/-- A is logged in, the answer for B is an error, A logs out. -/
theorem session_after_login_and_logout_twoAccounts :
    ∃ s s' t t', machine.run twoAccounts twoLogins = some s ∧
      machine.step s (.signInResponse loginA (.success "uid1")) = some s' ∧
      machine.run s' [.signInResponse loginB (.error wrongPassword)] = some t ∧
      machine.step t (.tapLogout none) = some t' ∧ s'.front = .main ∧ loginB ∈ s'.signIns ∧
      t.auth.currentUser = some ⟨"uid1"⟩ ∧ t'.auth.currentUser = none := by
  obtain ⟨s, hrun, hs⟩ := Machine.exists_run_of_any machine twoAccounts twoLogins
    (fun s => (machine.run s [.signInResponse loginA (.success "uid1"),
      .signInResponse loginB (.error wrongPassword), .tapLogout none]).isSome) (by decide)
  obtain ⟨t', ht'⟩ := Option.isSome_iff_exists.1 hs
  obtain ⟨s', hstep, hrun'⟩ := Machine.run_cons.1 ht'
  obtain ⟨t, herror, hlogout⟩ := Machine.run_cons.1 hrun'
  have hrun'' : machine.run s' [.signInResponse loginB (.error wrongPassword)] = some t :=
    Machine.run_singleton.2 herror
  have hlogout' : machine.step t (.tapLogout none) = some t' := Machine.run_singleton.1 hlogout
  obtain ⟨hfront, -, hafter⟩ := session_after_login_and_logout.1 loginA "uid1" s' hstep
  obtain ⟨huser, hawaits⟩ := hafter _ t hrun'' (by simp [Action.Ends])
  have hloginB : loginB ∈ s'.signIns :=
    hawaits (by simp) (.signInResponse loginB (.error wrongPassword)) (by simp)
  have hok : (t.auth.signOut none).2 = true := (FIRAuth.signOut_ok_iff _ _).2 (Or.inr rfl)
  have hnone : t'.auth.currentUser = none :=
    (session_after_login_and_logout.2.1 none t' hlogout' hok [] t' rfl (by simp)).1 (by simp)
  exact ⟨s, s', t, t', hrun, hstep, hrun'', hlogout', hfront, hloginB, huser, hnone⟩

end Harusali.App
