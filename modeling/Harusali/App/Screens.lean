import Harusali.App.Agreement

set_option autoImplicit false

/-! # The screens of the app

What the screens can look like in a reachable state (`Screens`), and from it that no tap they
offer traps or is lost: the force-unwrapped texts are always there, the guards never fail, and
every button of an alert leads back to the sign-up screen that showed it or on to the sign-in
screen. -/

namespace Harusali.App

/-! ## The invariant -/

structure Screens (s : App) : Prop where
  /-- In full screen, where no swipe dismisses it. -/
  fullScreen : ∀ style ∈ s.presented, style = .fullScreen
  /-- At most one `SignUpVC` is pushed. -/
  pushed : s.viewControllers = [] ∨ ∃ i < s.signUpVCs.length, s.viewControllers = [i]
  /-- An alert is that of a completion, over the `SignUpVC` that was tapped. -/
  alert : ∀ i alert, s.alert = some (i, alert) → s.presented.isSome = true ∧
    s.viewControllers = [i] ∧ ∃ result, alert = SignUpVC.completionAlert result
  signInFilled : s.loginVC.Filled
  signUpFilled : ∀ fields ∈ s.signUpVCs, fields.Filled

theorem screens_launch (keychain : Option User) (keychainError : Option NSError)
    (flow : SignUpFlow) (signInCalls : Nat) :
    (launch keychain keychainError flow signInCalls).Screens := by
  rw [launch, checkIfUserLoggedIn_eq]
  exact
    { fullScreen := by simp
      pushed := Or.inl rfl
      alert := by simp
      signInFilled := ⟨rfl, rfl⟩
      signUpFilled := by simp }

theorem Screens.presentNavController {s : App} (h : s.Screens)
    (hstyle : s.modalPresentationStyle = .fullScreen) : s.presentNavController.Screens := by
  cases hpresented : s.presented with
  -- presenting it again changes nothing
  | some style =>
      have hsame : s.presentNavController = s := by
        unfold App.presentNavController
        rw [hpresented, Option.some_or, ← hpresented]
      rw [hsame]
      exact h
  | none =>
      refine { h with fullScreen := ?_, alert := ?_ }
      · intro style hmem
        simp only [App.presentNavController, hpresented, Option.none_or, Option.mem_def,
          Option.some.injEq] at hmem
        rw [← hmem, hstyle]
      · intro i alert halert
        obtain ⟨hup, -⟩ := h.alert i alert halert
        rw [hpresented] at hup
        exact absurd hup (by simp)

/-- An alert goes up over the sign-up screen in front, and nowhere else. -/
theorem Screens.showResult {s : App} (h : s.Screens) (effect : Effect) :
    (s.showResult effect).Screens := by
  cases effect with
  | setData r => exact h
  | doNothing => exact h
  | completion c result =>
      simp only [App.showResult, presentAlert]
      split
      · next hfront =>
          obtain ⟨hup, -, hhead⟩ := front_eq_signUp_iff.1 hfront
          refine { h with alert := ?_ }
          intro i alert halert
          simp only [Option.some.injEq, Prod.mk.injEq] at halert
          obtain ⟨rfl, rfl⟩ := halert
          refine ⟨hup, ?_, result, rfl⟩
          rcases h.pushed with hnil | ⟨i, -, hone⟩
          · rw [hnil] at hhead
            exact absurd hhead (by simp)
          · rw [hone] at hhead ⊢
            rw [← Option.some.inj hhead]
      · exact h

theorem Screens.viewControllers_tail {s : App} (h : s.Screens) : s.viewControllers.tail = [] := by
  rcases h.pushed with hnil | ⟨i, -, hone⟩
  · rw [hnil, List.tail_nil]
  · rw [hone, List.tail_cons]

theorem Screens.popViewController {s : App} (h : s.Screens) (halert : s.alert = none) :
    s.popViewController.Screens := by
  refine { h with pushed := Or.inl h.viewControllers_tail, alert := ?_ }
  intro i alert hsome
  rw [show s.popViewController.alert = s.alert from rfl, halert] at hsome
  exact absurd hsome (by simp)

theorem forall_mem_modify {α : Type} {P : α → Prop} {l : List α} {f : α → α} {i : Nat}
    (hl : ∀ a ∈ l, P a) (hf : ∀ a, P a → P (f a)) : ∀ a ∈ l.modify i f, P a := by
  intro a hmem
  obtain ⟨j, hj, rfl⟩ := List.getElem_of_mem hmem
  have hj' : j < l.length := by rwa [List.length_modify] at hj
  rw [List.getElem_modify]
  split
  · exact hf _ (hl _ (List.getElem_mem hj'))
  · exact hl _ (List.getElem_mem hj')

theorem screens_step {s s' : App} {action : Action} (h : s.Screens) (hstep : Step s action s') :
    s'.Screens := by
  cases hstep with
  | launch keychainError => exact screens_launch _ _ _ _
  | runMainQueue hqueue =>
      refine Screens.presentNavController ?_ rfl
      exact { h with }
  | tapLogout keychainError hfront =>
      refine Screens.presentNavController ?_ rfl
      exact { h with }
  | editSignIn field text hfront => exact { h with signInFilled := h.signInFilled.edit field text }
  | tapLoginBT hfront hr => exact { h with }
  | tapSignUpBT hfront =>
      obtain ⟨-, halert, hnil⟩ := front_eq_signIn_iff.1 hfront
      refine { h with pushed := ?_, alert := ?_, signUpFilled := ?_ }
      · exact Or.inr ⟨s.signUpVCs.length, by simp [tapSignUpBT], by simp [tapSignUpBT, hnil]⟩
      · intro i alert hsome
        rw [show s.tapSignUpBT.alert = s.alert from rfl, halert] at hsome
        exact absurd hsome (by simp)
      · intro fields hmem
        rcases List.mem_append.1 hmem with hold | hnew
        · exact h.signUpFilled fields hold
        · rw [List.mem_singleton.1 hnew]
          exact ⟨rfl, rfl, rfl⟩
  | @editSignUp i field text hfront =>
      refine { h with pushed := ?_, signUpFilled := ?_ }
      · simpa using h.pushed
      · exact forall_mem_modify h.signUpFilled fun fields hfilled => hfilled.edit field text
  | signUpBtTap hfront hfields => exact { h with }
  | tapBack hfront =>
      obtain ⟨-, halert, -⟩ := front_eq_signUp_iff.1 hfront
      exact h.popViewController halert
  | @tapAlert button i alert action hfront haction =>
      have hclosed : Screens { s with alert := none } := { h with alert := by simp }
      unfold perform
      split
      · exact hclosed
      · exact { hclosed.popViewController rfl with }
  | signInSuccess hr haccount =>
      exact { h with
        fullScreen := by simp
        alert := by simp
        signInFilled := ⟨rfl, rfl⟩ }
  | signInError hr => exact { h with signInFilled := ⟨rfl, rfl⟩ }
  | createUserSuccess hflow => exact { h with }
  | createUserError hflow =>
      refine Screens.showResult ?_ _
      exact { h with }
  | setDataResponse hflow =>
      refine Screens.showResult ?_ _
      exact { h with }

/-- **Every reachable state shows one of the screens of `Screens`.** -/
theorem screens_run {keychain : Option User} {keychainError : Option NSError} {accounts : Accounts}
    {firestore : Firestore} {actions : List Action} {s : App}
    (hrun : machine.run (coldStart keychain keychainError accounts firestore) actions = some s) :
    s.Screens :=
  Machine.run_preserves (fun _ _ _ hstep h => screens_step h (step_of_machine hstep)) hrun
    (screens_launch keychain keychainError _ 0)

/-! ## No tap traps -/

/-- A tap on the login button sends what the text fields hold. -/
theorem Screens.step_tapLoginBT {s : App} (h : s.Screens) (hfront : s.front = .signIn) :
    ∃ r, s.loginVC.tapLoginBT s.signInCalls = some r ∧ machine.step s .tapLoginBT
      = some { s with signIns := s.signIns ++ [r], signInCalls := s.signInCalls + 1 } := by
  obtain ⟨r, hr⟩ := h.signInFilled.tapLoginBT s.signInCalls
  refine ⟨r, hr, ?_⟩
  simp [machine, step, userStep, hfront, App.tapLoginBT, hr]

/-- Every tap on `signUpBT` makes an attempt. -/
theorem Screens.step_signUpBtTap {s : App} (h : s.Screens) {i : Nat}
    (hfront : s.front = .signUp i) :
    ∃ fields s', s.signUpVCs[i]? = some fields ∧ machine.step s .signUpBtTap = some s' ∧
      ∃ r, fields.signUpBtTap ⟨i, s.flow.attempts.length⟩ = some r ∧
        s'.flow.createUsers = s.flow.createUsers ++ [r] ∧
        s'.flow.attempts = s.flow.attempts ++ [⟨fields, r.withEmail⟩] := by
  obtain ⟨-, -, hhead⟩ := front_eq_signUp_iff.1 hfront
  have hi : i < s.signUpVCs.length := by
    rcases h.pushed with hnil | ⟨j, hj, hone⟩
    · rw [hnil] at hhead
      exact absurd hhead (by simp)
    · rw [hone] at hhead
      rwa [← Option.some.inj hhead]
  have hfields : s.signUpVCs[i]? = some s.signUpVCs[i] := List.getElem?_eq_getElem hi
  obtain ⟨r, hr⟩ :=
    (h.signUpFilled _ (List.getElem_mem hi)).signUpBtTap ⟨i, s.flow.attempts.length⟩
  refine ⟨s.signUpVCs[i], { s with flow := s.flow.tapSignUp i s.signUpVCs[i] }, hfields, ?_,
    r, hr, ?_⟩
  · simp [machine, step, userStep, hfront, App.signUpBtTap, hfields]
  · simp [SignUpFlow.tapSignUp, hr]

/-- Every button of an alert closes it; the confirming one of the success alert leads on to the
    sign-in screen, the others back to the sign-up screen. -/
theorem Screens.step_tapAlert {s : App} (h : s.Screens) {i button : Nat}
    {alert : UIAlertController SignUpVC.Method} {action : UIAlertAction SignUpVC.Method}
    (hfront : s.front = .alert i alert) (haction : alert.actions[button]? = some action) :
    ∃ s', machine.step s (.tapAlert button) = some s' ∧
      s'.front = if action.handler = none then .signUp i else .signIn := by
  obtain ⟨hup, halert⟩ := front_eq_alert_iff.1 hfront
  obtain ⟨-, hone, -⟩ := h.alert i alert halert
  refine ⟨perform { s with alert := none } action.handler, ?_, ?_⟩
  · simp [machine, step, userStep, hfront, App.tapAlert, haction]
  · cases hhandler : action.handler with
    | none =>
        rw [if_pos rfl]
        exact front_eq_signUp_iff.2 ⟨hup, rfl, by rw [perform, hone, List.head?_cons]⟩
    | some method =>
        rw [if_neg (by simp)]
        refine front_eq_signIn_iff.2 ⟨hup, rfl, ?_⟩
        simp [perform, backToLogin, App.popViewController, hone]

/-- **No tap traps or goes unanswered**: in every reachable state a tap on the login button sends a
    request, a tap on `signUpBT` makes an attempt, and every button of an alert leads somewhere. -/
theorem taps_answered {keychain : Option User} {keychainError : Option NSError}
    {accounts : Accounts} {firestore : Firestore} {actions : List Action} {s : App}
    (hrun : machine.run (coldStart keychain keychainError accounts firestore) actions = some s) :
    (s.front = .signIn → ∃ r s', machine.step s .tapLoginBT = some s' ∧
      s'.signIns = s.signIns ++ [r]) ∧
    (∀ i, s.front = .signUp i → ∃ r s', machine.step s .signUpBtTap = some s' ∧
      s'.flow.createUsers = s.flow.createUsers ++ [r] ∧
      s'.flow.attempts.length = s.flow.attempts.length + 1) ∧
    (∀ i alert button, s.front = .alert i alert → button < alert.actions.length →
      ∃ s', machine.step s (.tapAlert button) = some s' ∧
        (s'.front = .signUp i ∨ s'.front = .signIn)) := by
  have hscreens := screens_run hrun
  refine ⟨?_, ?_, ?_⟩
  · intro hfront
    obtain ⟨r, -, hstep⟩ := hscreens.step_tapLoginBT hfront
    exact ⟨r, _, hstep, rfl⟩
  · intro i hfront
    obtain ⟨fields, s', -, hstep, r, -, hcreateUsers, hattempts⟩ :=
      hscreens.step_signUpBtTap hfront
    refine ⟨r, s', hstep, hcreateUsers, ?_⟩
    rw [hattempts, List.length_append, List.length_singleton]
  · intro i alert button hfront hbutton
    obtain ⟨s', hstep, hfront'⟩ :=
      hscreens.step_tapAlert hfront (List.getElem?_eq_getElem hbutton)
    refine ⟨s', hstep, ?_⟩
    rw [hfront']
    split
    · exact Or.inl rfl
    · exact Or.inr rfl

/-- Login, sign-up and alert, one tap on each. -/
theorem taps_answered_sampleSignUp :
    (∃ s r s', machine.run noOneLoggedIn (sampleSignUp.take 1) = some s ∧
      machine.step s .tapLoginBT = some s' ∧ s'.signIns = s.signIns ++ [r]) ∧
    (∃ s r s', machine.run noOneLoggedIn (sampleSignUp.take 5) = some s ∧
      machine.step s .signUpBtTap = some s' ∧
      s'.flow.createUsers = s.flow.createUsers ++ [r]) ∧
    (∃ s s', machine.run noOneLoggedIn (sampleSignUp.take 8) = some s ∧
      machine.step s (.tapAlert 1) = some s' ∧ (s'.front = .signUp 0 ∨ s'.front = .signIn)) := by
  refine ⟨?_, ?_, ?_⟩
  · obtain ⟨s, hrun, hs⟩ := Machine.exists_run_of_any machine noOneLoggedIn (sampleSignUp.take 1)
      (fun s => decide (s.front = .signIn)) (by decide)
    obtain ⟨r, s', hstep, hsigns⟩ := (taps_answered hrun).1 (of_decide_eq_true hs)
    exact ⟨s, r, s', hrun, hstep, hsigns⟩
  · obtain ⟨s, hrun, hs⟩ := Machine.exists_run_of_any machine noOneLoggedIn (sampleSignUp.take 5)
      (fun s => decide (s.front = .signUp 0)) (by decide)
    obtain ⟨r, s', hstep, hcreateUsers, -⟩ := (taps_answered hrun).2.1 0 (of_decide_eq_true hs)
    exact ⟨s, r, s', hrun, hstep, hcreateUsers⟩
  · obtain ⟨s, hrun, hs⟩ := Machine.exists_run_of_any machine noOneLoggedIn (sampleSignUp.take 8)
      (fun s => decide (s.front = .alert 0 SignUpVC.successSignUpAlert)) (by decide)
    obtain ⟨s', hstep, hfront'⟩ :=
      (taps_answered hrun).2.2 _ _ 1 (of_decide_eq_true hs) (by decide)
    exact ⟨s, s', hrun, hstep, hfront'⟩

end Harusali.App
