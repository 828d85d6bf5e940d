import Harusali.Client.Guarantees
import Harusali.Device.Step

set_option autoImplicit false

/-! # What the device guarantees

Over every run from the first launch: with sign-ups, log-ins, log-outs, tokens that expire or are
refused, failing calls, and the process ending at any point. The client below takes part in such a
run as `System` says (`refinesSystem`), and is always told which user is signed in before it is
handed anything to write, so a profile document is written by its own account only. -/

namespace Harusali

open SerialQueue (drained AllFit)
open Firestore (WriteLog Status System)
open Firestore.System (toMutations)

namespace Device

/-! ## Every run keeps the invariant -/

/-- The device before its first launch. -/
def blank (keychain : Option User) (firestore : Firestore) : Device where
  auth := { currentUser := none, keychain, rawAccessToken := none, lastNotifiedUserToken := none }
  loaded := false
  mainQueue := []
  contents := { currentUser := .unauthenticated, tokenCounter := 0 }
  changeListener := false
  dispatched := []
  fetching := []
  workerQueue := []
  initialized := false
  system := .installed .unauthenticated firestore
  createUsers := []
  attempts := 0
  setDatas := []
  completed := []

variable {keychain : Option User} {firestore : Firestore} {early : Option (Nat × Option NSError)}
  {actions : List Action}

theorem install_eq (keychain : Option User) (firestore : Firestore)
    (early : Option (Nat × Option NSError)) :
    install keychain firestore early = .ok ((blank keychain firestore).launch early) := by
  rw [install, Firestore.System.install_eq]
  rfl

theorem ok_blank (hkeychain : ∀ user, keychain = some user → user.uid ≠ "") (firestore : Firestore) :
    (blank keychain firestore).Ok firestore := by
  refine ⟨Firestore.System.ok_installed .unauthenticated firestore, ⟨?_, ?_, ?_⟩, ?_⟩
  · intro call hmem
    have hnone : call ∈ [] := Firestore.System.calls_installed .unauthenticated firestore ▸ hmem
    exact absurd hnone List.not_mem_nil
  · intro call hcall
    have hmem := Firestore.FirestoreClient.mem_calls.2 (Or.inr hcall)
    have hnone : call ∈ [] := Firestore.System.calls_installed .unauthenticated firestore ▸ hmem
    exact absurd hnone List.not_mem_nil
  · exact fun p hp => absurd hp List.not_mem_nil
  · refine ⟨⟨⟨?_, rfl, rfl⟩, rfl, trivial, ?_, ?_⟩, trivial, rfl, fun _ => rfl, rfl, ?_, ?_, ?_⟩
    · rintro user (hknows | hknows)
      · exact absurd hknows (by simp [blank])
      · exact hkeychain user hknows
    · exact fun getToken hmem => absurd hmem (by simp [asked, blank])
    · exact fun p hp => absurd hp List.not_mem_nil
    · exact fun write hmem => absurd hmem List.not_mem_nil
    · exact fun write status hmem => absurd hmem List.not_mem_nil
    · exact fun completion value hmem => absurd hmem List.not_mem_nil

theorem ok_of_run (hkeychain : ∀ user, keychain = some user → user.uid ≠ "")
    {r : Except String Device} (hrun : machine.run (install keychain firestore early) actions = some r) :
    ∃ d, r = .ok d ∧ d.Ok firestore := by
  refine Machine.run_preserves (P := fun r => ∃ d, r = .ok d ∧ d.Ok firestore) ?_ hrun ?_
  · rintro _ a r hstep ⟨d, rfl, hd⟩
    exact ok_step hd hstep
  · exact ⟨_, install_eq keychain firestore early, (ok_blank hkeychain firestore).launch early⟩

theorem ok_of_run_ok (hkeychain : ∀ user, keychain = some user → user.uid ≠ "") {d : Device}
    (hrun : machine.run (install keychain firestore early) actions = some (.ok d)) :
    d.Ok firestore := by
  obtain ⟨d', heq, hd'⟩ := ok_of_run hkeychain hrun
  rw [Except.ok.inj heq]
  exact hd'

/-! ## A sample -/

def sampleFields : SignUpVC where
  nameTextField := { text := some "name" }
  emailTextField := { text := some "user@example.com" }
  passWordTextField := { text := some "password" }

def sampleRequest : CreateUserRequest where
  withEmail := "user@example.com"
  password := "password"
  email := "user@example.com"
  name := "name"
  balance := "0"
  completion := ⟨0, 0⟩

/-- A sign-up up to the point where its document is in the client's queue. -/
def sampleQueued : List Action :=
  [.loadUser 0 none, .signUpBtTap 0 sampleFields,
   .createUserResponse sampleRequest (.success "uid1") 1 none, .runMain, .runMain, .runWorker,
   .runWorker]

/-- The rest of it, up to the alert. -/
def sampleSignUp : List Action :=
  sampleQueued ++
  [.getTokenForcingRefresh, .getTokenReply 0 true (.valid 1), .runMain, .runWorker,
   .client (.serve (.accept (.response [] (.ok 0)))), .client .streamRead,
   .client (.serve (.accept (.response [1] (.ok 1)))), .client .streamRead, .runMain]

theorem exists_ok_run (actions : List Action) (p : Device → Bool)
    (h : (machine.run (install none ⟨fun _ => none⟩ none) actions).any
      (fun r => r.toOption.any p) = true) :
    ∃ d, machine.run (install none ⟨fun _ => none⟩ none) actions = some (.ok d) ∧ p d = true := by
  obtain ⟨r, hrun, hr⟩ := Machine.exists_run_of_any machine _ actions _ h
  cases r with
  | error message => exact absurd hr (by simp [Except.toOption])
  | ok d => exact ⟨d, hrun, hr⟩

/-! ## The client takes part as its own model says -/

/-- The step of the client that an operation of the worker queue is. -/
def workerAction : WorkerTask → Firestore.System.Action
  | .initializeClient user => .restart user
  | .handleCredentialChange user => .credentialChange user
  | .resumeStartWithCredentials n maybeToken => .resumeStart n maybeToken
  | .writeMutations r => .setData r.path r.data

/-- The step of the client that a step of the device is, if it is one. -/
def systemAction (d : Device) : Action → Option Firestore.System.Action
  | .runWorker => d.workerQueue.head?.map workerAction
  | .client a => some a
  | _ => none

theorem step_of_clientStep {d : Device} {a : Firestore.System.Action} {r : Except String Device}
    (h : d.clientStep a = some r) : d.system.step a = some (r.map (·.system)) := by
  obtain ⟨system, hstep, rfl⟩ := Option.map_eq_some_iff.1 h
  rw [hstep]
  cases system <;> rfl

theorem step_of_runWorkerTask {d : Device} {task : WorkerTask} {r : Except String Device}
    (h : d.runWorkerTask task = some r) :
    d.system.step (workerAction task) = some (r.map (·.system)) := by
  cases task with
  | initializeClient user =>
      exact step_of_clientStep (d := { d with initialized := true }) (a := .restart user) h
  | handleCredentialChange user => exact step_of_clientStep (a := .credentialChange user) h
  | resumeStartWithCredentials n maybeToken =>
      exact step_of_clientStep (a := .resumeStart n maybeToken) h
  | writeMutations r =>
      exact step_of_clientStep (d := { d with setDatas := d.setDatas ++ [r] })
        (a := .setData r.path r.data) h

theorem stepOpt_systemAction {d d' : Device} {a : Action} (hstep : d.step a = some (.ok d')) :
    System.machine.stepOpt (.ok d.system) (d.systemAction a) = some (.ok d'.system) := by
  cases a with
  | runWorker =>
      simp only [step] at hstep
      split at hstep
      · exact absurd hstep (by simp)
      · next task workerQueue hqueue =>
          simp only [systemAction, hqueue, List.head?_cons, Option.map_some]
          exact step_of_runWorkerTask hstep
  | client a =>
      simp only [step] at hstep
      split at hstep
      · exact step_of_clientStep hstep
      · exact absurd hstep (by simp)
  | runMain =>
      simp only [step] at hstep
      split at hstep
      · exact absurd hstep (by simp)
      · next task mainQueue hqueue =>
          obtain rfl := Except.ok.inj (Option.some.inj hstep)
          simp only [systemAction, Machine.stepOpt, (runMainTask_frame _ _).1]
  | relaunch early =>
      obtain rfl := Except.ok.inj (Option.some.inj hstep)
      cases early <;> rfl
  | signUpBtTap signUpVC fields =>
      simp only [step] at hstep
      split at hstep
      · exact absurd hstep (by simp)
      · obtain rfl := Except.ok.inj (Option.some.inj hstep)
        rfl
  | createUserResponse | signInResponse | signOut | tokenReply =>
      simp only [step] at hstep
      split at hstep
      · obtain rfl := Except.ok.inj (Option.some.inj hstep)
        rfl
      · exact absurd hstep (by simp)
  | loadUser serial keychainError =>
      simp only [step] at hstep
      split at hstep
      · exact absurd hstep (by simp)
      · obtain rfl := Except.ok.inj (Option.some.inj hstep)
        rfl
  | getTokenForcingRefresh =>
      simp only [step] at hstep
      split at hstep
      · split at hstep <;>
        · obtain rfl := Except.ok.inj (Option.some.inj hstep)
          rfl
      · exact absurd hstep (by simp)
  | getTokenReply i isCurrent reply =>
      simp only [step] at hstep
      split at hstep
      · exact absurd hstep (by simp)
      · split at hstep
        · obtain rfl := Except.ok.inj (Option.some.inj hstep)
          rfl
        · exact absurd hstep (by simp)

/-- Seen from the client, the device does what the client's model does. -/
def refinesSystem (initial : Firestore) : Refines machine System.machine where
  Ok r := ∃ d, r = .ok d ∧ d.Ok initial
  proj r := r.map (·.system)
  act
    | .ok d, a => d.systemAction a
    | .error _, _ => none
  ok_step := by
    rintro _ a r hstep ⟨d, rfl, hd⟩
    exact ok_step hd hstep
  step := by
    rintro _ a r ⟨d, rfl, hd⟩ hstep
    obtain ⟨d', rfl, -⟩ := ok_step hd hstep
    exact stepOpt_systemAction hstep

/-- **The worker queue is never stuck and never fails an assertion.** Its next operation can always
    run; in particular every token that comes back finds the client waiting for it or past it. -/
theorem worker_never_blocks (hkeychain : ∀ user, keychain = some user → user.uid ≠ "")
    {r : Except String Device}
    (hrun : machine.run (install keychain firestore early) actions = some r) :
    ∃ d, r = .ok d ∧ (d.workerQueue ≠ [] → ∃ d', d.step .runWorker = some (.ok d')) := by
  obtain ⟨d, rfl, hd⟩ := ok_of_run hkeychain hrun
  refine ⟨d, rfl, fun hne => ?_⟩
  obtain ⟨task, workerQueue, hqueue⟩ := List.exists_cons_of_ne_nil hne
  obtain ⟨d', hstep, -⟩ := ok_runWorker hd hqueue
  exact ⟨d', by simp only [step, hqueue, hstep]⟩

theorem worker_never_blocks_sampleQueued :
    ∃ r, machine.run (install none ⟨fun _ => none⟩ none) sampleQueued = some r ∧
      ∃ d, r = .ok d ∧ (d.workerQueue ≠ [] → ∃ d', d.step .runWorker = some (.ok d')) := by
  obtain ⟨d, hrun, -⟩ := exists_ok_run sampleQueued (fun _ => true) (by decide)
  exact ⟨.ok d, hrun, worker_never_blocks (by simp) hrun⟩

/-! ## Whose documents are written -/

/-- **A profile document is only written by its own account.** Every write the app has made is in
    the queue of the account whose document it sets, and the service has carried it out, if at all,
    on a call under a token of that account: also when the user has changed, the process has ended
    or tokens have been refused in between. -/
theorem profile_written_by_owner (hkeychain : ∀ user, keychain = some user → user.uid ≠ "")
    {d : Device} (hrun : machine.run (install keychain firestore early) actions = some (.ok d)) :
    (∀ write ∈ d.system.writes, IsProfile write) ∧
      ∀ token write, (token, write) ∈ d.system.backend.commits → ∃ uid h data,
        token = some uid ∧
        d.system.writes[write]? = some (.authenticated uid h, toMutations ⟨"User", uid⟩ data) := by
  have hok := ok_of_run_ok hkeychain hrun
  refine ⟨hok.around.profiles, fun token write hmem => ?_⟩
  have hlt := hok.system.backend.known write (List.mem_map_of_mem (f := Prod.snd) hmem)
  have hget := List.getElem?_eq_getElem hlt
  obtain ⟨uid, hne, data, hprofile⟩ := hok.around.profiles _ (List.getElem_mem hlt)
  rw [hprofile] at hget
  have howner : WriteLog.userOf d.system.writes write = some (.authenticated uid hne) := by
    rw [WriteLog.userOf, hget]
    rfl
  exact ⟨uid, hne, data, hok.owned.commits _ hmem _ howner, hget⟩

theorem profile_written_by_owner_sampleSignUp :
    ∃ d, machine.run (install none ⟨fun _ => none⟩ none) sampleSignUp = some (.ok d) ∧
      (∀ write ∈ d.system.writes, IsProfile write) ∧
      ∀ token write, (token, write) ∈ d.system.backend.commits → ∃ uid h data,
        token = some uid ∧
        d.system.writes[write]? = some (.authenticated uid h, toMutations ⟨"User", uid⟩ data) := by
  obtain ⟨d, hrun, -⟩ := exists_ok_run sampleSignUp (fun _ => true) (by decide)
  exact ⟨d, hrun, profile_written_by_owner (by simp) hrun⟩

/-- **When the screen says that a sign-up has succeeded, the account's document is stored, and it
    stays so whatever happens later.** It has the data of a sign-up that this account made. -/
theorem reported_signUp_stored (hkeychain : ∀ user, keychain = some user → user.uid ≠ "")
    {d : Device} (hrun : machine.run (install keychain firestore early) actions = some (.ok d))
    {completion : Completion} {value : String}
    (hreported : (completion, .success value) ∈ d.completed) {more : List Action} {d' : Device}
    (hmore : machine.run (.ok d) more = some (.ok d')) :
    ∃ r ∈ d.setDatas, r.completion = completion ∧ ∃ uid h data, r.path = ⟨"User", uid⟩ ∧
      (Firestore.User.authenticated uid h, toMutations ⟨"User", uid⟩ data) ∈ d'.system.writes ∧
      d'.system.backend.firestore.document ⟨"User", uid⟩ = some data := by
  have hok := ok_of_run_ok hkeychain hrun
  obtain ⟨d'', heq, hok'⟩ := (refinesSystem firestore).ok_run ⟨d, rfl, hok⟩ hmore
  obtain rfl := Except.ok.inj heq
  have hsystem := (refinesSystem firestore).run ⟨d, rfl, hok⟩ hmore
  obtain ⟨-, hgrows, hwrites⟩ := Firestore.System.grows_of_run hok.system hsystem
  obtain ⟨r, hcompletion, write, status, hr, hstatus, htold⟩ :=
    hok.around.completed completion value hreported
  have hcommitted := hgrows.committed
    (Firestore.System.committed_of_reported hok.system hstatus htold)
  -- the write that was reported is the profile of an account
  have hmutations : (d.system.writes.map Prod.snd)[write]? = some (toMutations r.path r.data) := by
    rw [hok.around.setDatas, List.getElem?_map, hr]
    rfl
  rw [List.getElem?_map] at hmutations
  obtain ⟨⟨owner, mutations⟩, hmade, rfl⟩ := Option.map_eq_some_iff.1 hmutations
  obtain ⟨uid, hne, data, hprofile⟩ := hok.around.profiles _ (List.mem_of_getElem? hmade)
  obtain ⟨rfl, hsame⟩ := Prod.mk.inj hprofile
  obtain ⟨hpath, -⟩ := Firestore.SetMutation.mk.inj (List.singleton_inj.1 hsame)
  have hmutation : (⟨r.path, r.data⟩ : Firestore.SetMutation)
      ∈ WriteLog.mutationsOf d'.system.writes write := by
    rw [WriteLog.mutationsOf, WriteLog.getElem?_mono hwrites hmade]
    exact List.mem_singleton.2 rfl
  obtain ⟨write', -, m, hm, hkey, hdocument⟩ :=
    Firestore.System.document_of_committed hok'.system hcommitted hmutation
  -- and so is the write its data is from
  obtain ⟨⟨owner', mutations'⟩, hmade', hmem'⟩ : ∃ p, d'.system.writes[write']? = some p ∧ m ∈ p.2 := by
    rw [WriteLog.mutationsOf] at hm
    cases hget : d'.system.writes[write']? with
    | none =>
        rw [hget] at hm
        exact absurd hm List.not_mem_nil
    | some p =>
        rw [hget] at hm
        exact ⟨p, rfl, hm⟩
  obtain ⟨uid', hne', data', hprofile'⟩ := hok'.around.profiles _ (List.mem_of_getElem? hmade')
  obtain ⟨rfl, rfl⟩ := Prod.mk.inj hprofile'
  obtain rfl := List.mem_singleton.1 hmem'
  obtain rfl : uid' = uid := congrArg DocumentPath.document (hkey.trans hpath)
  refine ⟨r, List.mem_of_getElem? hr, hcompletion, uid', hne', data', hpath,
    List.mem_of_getElem? hmade', ?_⟩
  rw [← hpath]
  exact hdocument

theorem reported_signUp_stored_sampleSignUp :
    ∃ d, machine.run (install none ⟨fun _ => none⟩ none) sampleSignUp = some (.ok d) ∧
      ∃ r ∈ d.setDatas, r.completion = ⟨0, 0⟩ ∧ ∃ uid h data, r.path = ⟨"User", uid⟩ ∧
        (Firestore.User.authenticated uid h, toMutations ⟨"User", uid⟩ data) ∈ d.system.writes ∧
        d.system.backend.firestore.document ⟨"User", uid⟩ = some data := by
  obtain ⟨d, hrun, hcompleted⟩ := exists_ok_run sampleSignUp
    (fun d => decide (d.completed = [(⟨0, 0⟩, .success "Success")])) (by decide)
  have hreported : (⟨0, 0⟩, Result.success "Success") ∈ d.completed := by
    rw [of_decide_eq_true hcompleted]
    exact List.mem_singleton.2 rfl
  have hstay : machine.run (.ok d) [] = some (.ok d) := rfl
  exact ⟨d, hrun, reported_signUp_stored (by simp) hrun hreported hstay⟩

/-! ## The client catches up with the session -/

theorem runMainTask_keeps (d : Device) (task : MainTask) :
    (d.runMainTask task).mainQueue = d.mainQueue ∧ (d.runMainTask task).auth = d.auth := by
  have hperform : ∀ effect, (d.perform effect).mainQueue = d.mainQueue ∧
      (d.perform effect).auth = d.auth := by
    intro effect
    cases effect with
    | doNothing | completion => exact ⟨rfl, rfl⟩
    | setData r =>
        unfold perform ensureClientConfigured
        dsimp only
        split <;> exact ⟨rfl, rfl⟩
  cases task with
  | authStateDidChange uid =>
      unfold runMainTask
      dsimp only
      split <;> exact ⟨rfl, rfl⟩
  | getTokenCallback getToken token error =>
      unfold runMainTask getTokenCallback
      dsimp only
      split <;> exact ⟨rfl, rfl⟩
  | createUserCompletion r result error => exact hperform _
  | setDataCompletion write status =>
      unfold runMainTask
      dsimp only
      split
      · exact ⟨rfl, rfl⟩
      · exact hperform _

/-- An operation of the worker queue calls no callback. -/
theorem runWorkerTask_keeps {initial : Firestore} {d d' : Device} (h : d.system.Ok initial)
    {task : WorkerTask} (hstep : d.runWorkerTask task = some (.ok d')) :
    d'.workerQueue = d.workerQueue ∧ d'.mainQueue = d.mainQueue ∧ d'.auth = d.auth := by
  have hclient : ∀ {d : Device} {a : Firestore.System.Action}, d.system.Ok initial → a.IsTask →
      d.clientStep a = some (.ok d') →
      d'.workerQueue = d.workerQueue ∧ d'.mainQueue = d.mainQueue ∧ d'.auth = d.auth := by
    intro d a hok htask hstep
    obtain ⟨system, hsome, hmap⟩ := Option.map_eq_some_iff.1 hstep
    obtain ⟨system, rfl, heffect, -⟩ := Firestore.System.ok_of_step hok hsome
    obtain rfl := Except.ok.inj hmap
    have hquiet := Firestore.System.notified_of_isTask hok heffect htask
    refine ⟨rfl, ?_, rfl⟩
    simp only [withSystem, hquiet, List.drop_length, List.map_nil, List.append_nil]
  cases task with
  | initializeClient user =>
      exact hclient (d := { d with initialized := true }) (a := .restart user) h trivial hstep
  | handleCredentialChange user => exact hclient (a := .credentialChange user) h trivial hstep
  | resumeStartWithCredentials n maybeToken =>
      exact hclient (a := .resumeStart n maybeToken) h trivial hstep
  | writeMutations r =>
      exact hclient (d := { d with setDatas := d.setDatas ++ [r] }) (a := .setData r.path r.data) h
        trivial hstep

/-- The main queue runs empty. -/
theorem drain_main {initial : Firestore} {d : Device} (h : d.Ok initial) :
    ∃ (more : List Action) (t : Device), (∀ a ∈ more, a = .runMain) ∧
      machine.run (.ok d) more = some (.ok t) ∧ t.Ok initial ∧ t.mainQueue = [] ∧
      t.auth = d.auth := by
  generalize hqueue : d.mainQueue = queue
  induction queue generalizing d with
  | nil => exact ⟨[], d, by simp, rfl, h, hqueue, rfl⟩
  | cons task mainQueue ih =>
      obtain ⟨hmain, hauth⟩ := runMainTask_keeps { d with mainQueue } task
      obtain ⟨more, t, hmore, hrun, ht, hempty, hsame⟩ := ih (ok_runMain h hqueue) hmain
      refine ⟨.runMain :: more, t, ?_, Machine.run_cons.2 ⟨_, ?_, hrun⟩, ht, hempty,
        hsame.trans hauth⟩
      · rintro a (_ | ⟨_, ha⟩)
        · rfl
        · exact hmore a ha
      · show d.step .runMain = _
        simp only [step, hqueue]

/-- The worker queue runs empty, and nothing comes to the main queue meanwhile. -/
theorem drain_worker {initial : Firestore} {d : Device} (h : d.Ok initial) :
    ∃ (more : List Action) (t : Device), (∀ a ∈ more, a = .runWorker) ∧
      machine.run (.ok d) more = some (.ok t) ∧ t.Ok initial ∧ t.workerQueue = [] ∧
      t.mainQueue = d.mainQueue ∧ t.auth = d.auth := by
  generalize hqueue : d.workerQueue = queue
  induction queue generalizing d with
  | nil => exact ⟨[], d, by simp, rfl, h, hqueue, rfl, rfl⟩
  | cons task workerQueue ih =>
      obtain ⟨d', hstep, hd'⟩ := ok_runWorker h hqueue
      obtain ⟨hworker, hmain, hauth⟩ := runWorkerTask_keeps (d := { d with workerQueue }) h.system hstep
      obtain ⟨more, t, hmore, hrun, ht, hempty, hsame, hsame'⟩ := ih hd' hworker
      refine ⟨.runWorker :: more, t, ?_, Machine.run_cons.2 ⟨_, ?_, hrun⟩, ht, hempty,
        hsame.trans hmain, hsame'.trans hauth⟩
      · rintro a (_ | ⟨_, ha⟩)
        · rfl
        · exact hmore a ha
      · show d.step .runWorker = _
        simp only [step, hqueue, hstep]

/-- **The client catches up with the session.** Wherever a run stands, the two queues can run empty
    without anything else happening, and then the client, if there is one, writes for the user who
    is signed in. -/
theorem session_reaches_client (hkeychain : ∀ user, keychain = some user → user.uid ≠ "")
    {d : Device} (hrun : machine.run (install keychain firestore early) actions = some (.ok d)) :
    ∃ (more : List Action) (t : Device), (∀ a ∈ more, a = .runMain ∨ a = .runWorker) ∧
      machine.run (install keychain firestore early) (actions ++ more) = some (.ok t) ∧
      t.mainQueue = [] ∧ t.workerQueue = [] ∧ t.auth = d.auth ∧
      (t.changeListener = true → t.initialized = true ∧
        t.system.client.currentUser = .fromUid d.auth.getUserID) := by
  obtain ⟨more, u, hmore, hmainRun, hu, hmain, hauth⟩ := drain_main (ok_of_run_ok hkeychain hrun)
  obtain ⟨more', t, hmore', hworkerRun, ht, hworker, hsame, hauth'⟩ := drain_worker hu
  have hempty : t.mainQueue = [] := hsame.trans hmain
  refine ⟨more ++ more', t, ?_, ?_, hempty, hworker, hauth'.trans hauth, fun hlistener => ?_⟩
  · intro a ha
    exact (List.mem_append.1 ha).imp (hmore a) (hmore' a)
  · exact Machine.run_append.2 ⟨_, hrun, Machine.run_append.2 ⟨_, hmainRun, hworkerRun⟩⟩
  · have htold := ht.around.told
    rw [hworker, if_pos hlistener] at htold
    obtain ⟨hinitialized, huser⟩ := clientUser_eq_some (show t.clientUser = _ from htold)
    have hposted := ht.around.session.posted
    rw [settledContents, hempty, hauth', hauth] at hposted
    exact ⟨hinitialized, huser.trans hposted⟩

theorem session_reaches_client_sampleQueued :
    ∃ d, machine.run (install none ⟨fun _ => none⟩ none) sampleQueued = some (.ok d) ∧
      ∃ (more : List Action) (t : Device), (∀ a ∈ more, a = .runMain ∨ a = .runWorker) ∧
        machine.run (install none ⟨fun _ => none⟩ none) (sampleQueued ++ more) = some (.ok t) ∧
        t.mainQueue = [] ∧ t.workerQueue = [] ∧ t.auth = d.auth ∧
        (t.changeListener = true → t.initialized = true ∧
          t.system.client.currentUser = .fromUid d.auth.getUserID) := by
  obtain ⟨d, hrun, -⟩ := exists_ok_run sampleQueued (fun _ => true) (by decide)
  exact ⟨d, hrun, session_reaches_client (by simp) hrun⟩

end Device

end Harusali
