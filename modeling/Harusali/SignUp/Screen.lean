import Harusali.Machine.Refinement
import Harusali.SignUp.Outcome

set_option autoImplicit false

/-! # The sign-up screen

One `SignUpVC` on screen, with the text fields under the user's fingers. The button is never
disabled, so taps interleave freely with edits and with the answers to earlier taps. Its machine
refines the sign-up flow (`refinesFlow`), from which its two guarantees come: what a reported
success stands for, and when a reported failure has left nothing behind. -/

namespace Harusali

structure SignUpScreen where
  fields : SignUpVC
  flow : SignUpFlow

namespace SignUpScreen

def initial (accounts : Accounts) (firestore : Firestore) : SignUpScreen where
  fields := {}
  flow := .initial accounts firestore

inductive Action where
  | edit (field : SignUpVC.Field) (text : String)
  | tapSignUpBT
  | createUserResponse (r : CreateUserRequest) (response : AuthResponse)
  | setDataResponse (r : SetDataRequest) (error : Option NSError)
  deriving DecidableEq, Repr

def machine : Machine SignUpScreen Action where
  step s
    | .edit field text => some { s with fields := s.fields.edit field text }
    | .tapSignUpBT => some { s with flow := s.flow.tapSignUp 0 s.fields }
    | .createUserResponse r response =>
        (s.flow.createUserResponse r response).map fun flow => { s with flow }
    | .setDataResponse r error =>
        (s.flow.setDataResponse r error).map fun flow => { s with flow }

/-! ## Refinement -/

/-- The step of the flow that an action of the screen is; an edit is none. -/
def flowAction (s : SignUpScreen) : Action → Option SignUpFlow.Action
  | .edit _ _ => none
  | .tapSignUpBT => some (.tapSignUp 0 s.fields)
  | .createUserResponse r response => some (.createUserResponse r response)
  | .setDataResponse r error => some (.setDataResponse r error)

theorem flow_step {s s' : SignUpScreen} {action : Action}
    (hstep : machine.step s action = some s') :
    SignUpFlow.machine.stepOpt s.flow (s.flowAction action) = some s'.flow := by
  cases action with
  | edit field text =>
      rw [← Option.some.inj hstep]
      rfl
  | tapSignUpBT =>
      rw [← Option.some.inj hstep]
      rfl
  | createUserResponse r response =>
      obtain ⟨flow, hflow, rfl⟩ := Option.map_eq_some_iff.1 hstep
      exact hflow
  | setDataResponse r error =>
      obtain ⟨flow, hflow, rfl⟩ := Option.map_eq_some_iff.1 hstep
      exact hflow

theorem flowAction_ne_terminate (s : SignUpScreen) (action : Action) :
    s.flowAction action ≠ some .terminate := by
  cases action <;> simp [flowAction]

/-- **The screen refines the flow**, and never ends the process. -/
def refinesFlow : Refines machine SignUpFlow.machine where
  Ok s := s.flow.lost = []
  proj := flow
  act := flowAction
  ok_step s action s' hstep hok := by
    have hflow := flow_step hstep
    cases hact : s.flowAction action with
    | none =>
        rw [hact] at hflow
        rw [← Option.some.inj hflow]
        exact hok
    | some b =>
        rw [hact] at hflow
        rw [(SignUpFlow.step_of_machine hflow).lost_eq, hok]
        intro hterminate
        exact flowAction_ne_terminate s action (hact.trans (by rw [hterminate]))
  step _ _ _ _ hstep := flow_step hstep

section Runs

variable {accounts : Accounts} {firestore : Firestore} {actions : List Action} {s : SignUpScreen}

/-- A run of the screen, seen by the flow. -/
theorem flow_run (hrun : machine.run (initial accounts firestore) actions = some s) :
    SignUpFlow.machine.run (.initial accounts firestore)
      (refinesFlow.acts (initial accounts firestore) actions) = some s.flow :=
  refinesFlow.run (s := initial accounts firestore) rfl hrun

theorem flow_inv (hrun : machine.run (initial accounts firestore) actions = some s) :
    s.flow.Inv :=
  SignUpFlow.inv_run (SignUpFlow.inv_initial accounts firestore) (flow_run hrun)

theorem flow_lost (hrun : machine.run (initial accounts firestore) actions = some s) :
    s.flow.lost = [] :=
  refinesFlow.ok_run (s := initial accounts firestore) rfl hrun

/-- The flow sees a `setData` response exactly where the screen gets one. -/
theorem setDataResponse_mem_acts (hrun : machine.run (initial accounts firestore) actions = some s)
    {r : SetDataRequest} {error : Option NSError} :
    .setDataResponse r error ∈ refinesFlow.acts (initial accounts firestore) actions ↔
      .setDataResponse r error ∈ actions := by
  rw [Refines.mem_acts]
  constructor
  · rintro ⟨⟨u, action⟩, hmem, hact⟩
    have haction : action = .setDataResponse r error := by
      cases action <;> simp_all [refinesFlow, flowAction]
    exact haction ▸ Machine.mem_of_mem_trace hrun hmem
  · intro hmem
    obtain ⟨u, hu⟩ := Machine.exists_mem_trace hrun hmem
    exact ⟨_, hu, rfl⟩

/-! ## What a report means -/

/-- **A reported success is complete, and concurrent attempts do not mix.** Once an attempt has
    reported success its account and its document are there for good and hold what it was to store;
    no uid is returned to two attempts; a pending `setData` writes its own attempt's document, and
    nothing else changes any; and an attempt with no pending request has reported once. -/
theorem reported_success_complete
    (hrun : machine.run (initial accounts firestore) actions = some s) :
    (∀ k value, (k, .success value) ∈ s.flow.completed →
      ∃ a uid, s.flow.attempts[k]? = some a ∧ (k, uid) ∈ s.flow.returned ∧
        ∀ actions' s', machine.run s actions' = some s' → s'.flow.Registered a uid) ∧
    (∀ k k' uid, (k, uid) ∈ s.flow.returned → (k', uid) ∈ s.flow.returned → k = k') ∧
    (∀ r ∈ s.flow.setDatas, ∃ uid, r.path = ⟨"User", uid⟩ ∧
      ∀ k, (k, uid) ∈ s.flow.returned ↔ k = r.completion.attempt) ∧
    (∀ action s' path, machine.step s action = some s' →
      s'.flow.firestore.document path ≠ s.flow.firestore.document path →
      ∃ r ∈ s.flow.setDatas, action = .setDataResponse r none ∧ r.path = path) ∧
    (∀ k < s.flow.attempts.length, s.flow.inFlight k = 0 → s.flow.reports k = 1) := by
  have hinv := flow_inv hrun
  refine ⟨?_, ?_, ?_, ?_, ?_⟩
  · intro k value hk
    obtain ⟨a, uid, ha, huid, -⟩ := hinv.records.registered hk
    refine ⟨a, uid, ha, huid, fun actions' s' hrun' => ?_⟩
    exact SignUpFlow.registered_run hinv (refinesFlow.run (flow_lost hrun) hrun') hk ha huid
  · intro k k' uid hk hk'
    exact hinv.records.returned_attempt hk hk'
  · intro r hr
    obtain ⟨a, uid, -, huid, hpath, -⟩ := hinv.records.setData r hr
    refine ⟨uid, hpath, fun k => ⟨fun hk => ?_, fun hk => hk ▸ huid⟩⟩
    exact (hinv.records.setData_own hr hk hpath).symm
  · intro action s' path hstep hwrite
    cases hact : flowAction s action with
    | none =>
        have hsame : s'.flow = s.flow := refinesFlow.unseen (flow_lost hrun) hstep hact
        exact absurd (by rw [hsame]) hwrite
    | some b =>
        have hflow := refinesFlow.seen (flow_lost hrun) hstep hact
        obtain ⟨r, rfl, hr, hpath⟩ := SignUpFlow.document_step hflow hwrite
        exact ⟨r, hr, by cases action <;> simp_all [flowAction], hpath⟩
  · intro k hk hflight
    exact hinv.ledger.reports_eq_one hk hflight (by simp [flow_lost hrun])

/-- Orphaned are the attempts whose `setData` was refused. -/
theorem orphaned_iff (hrun : machine.run (initial accounts firestore) actions = some s) (k : Nat) :
    s.flow.Orphaned k ↔
      ∃ r e, .setDataResponse r (some e) ∈ actions ∧ r.completion.attempt = k := by
  have hclean : ∀ k, ¬ (SignUpFlow.initial accounts firestore).Orphaned k := by
    simp [SignUpFlow.Orphaned, SignUpFlow.initial]
  rw [SignUpFlow.orphaned_run (SignUpFlow.inv_initial accounts firestore) hclean (flow_run hrun)]
  simp only [setDataResponse_mem_acts hrun]

/-- **A failed sign-up is all-or-nothing exactly when its `setData` was not refused**, and so all
    of them are exactly when none was. -/
theorem failed_signUp_leaves_nothing_iff
    (hrun : machine.run (initial accounts firestore) actions = some s) :
    (∀ k e, (k, .failure e) ∈ s.flow.completed →
      (s.flow.AllOrNothing k ↔
        ∀ r e, .setDataResponse r (some e) ∈ actions → r.completion.attempt ≠ k)) ∧
    ((∀ k e, (k, .failure e) ∈ s.flow.completed → s.flow.AllOrNothing k) ↔
      ∀ r e, .setDataResponse r (some e) ∉ actions) := by
  have hrecords := (flow_inv hrun).records
  have hone : ∀ k e, (k, .failure e) ∈ s.flow.completed →
      (s.flow.AllOrNothing k ↔
        ∀ r e, .setDataResponse r (some e) ∈ actions → r.completion.attempt ≠ k) := by
    intro k e he
    rw [hrecords.allOrNothing_iff_not_orphaned he, orphaned_iff hrun]
    simp only [not_exists, not_and, ne_eq]
  refine ⟨hone, fun hall r e hmem => ?_, fun hnone k e he => (hone k e he).2 fun r e hmem =>
    absurd hmem (hnone r e)⟩
  -- a refused attempt has failed, so it is among those said to have left nothing
  obtain ⟨⟨e', he'⟩, -⟩ := (orphaned_iff hrun _).2 ⟨r, e, hmem, rfl⟩
  exact (hone _ e' he').1 (hall _ e' he') r e hmem rfl

end Runs

/-! ## A refused `setData`

The shortest run on which a failed sign-up leaves something: the account is created, its document is
refused, and the alert asks the user to enter the data again. -/

def noAccounts : Accounts := ⟨[], List.nodup_nil, List.nodup_nil⟩

def noDocuments : Firestore := ⟨fun _ => none⟩

/-- The request a first tap sends with the fields of `refusedSetData`. -/
def sampleRequest : CreateUserRequest where
  withEmail := "user@example.com"
  password := "secret"
  email := "user@example.com"
  name := "user"
  balance := "0"
  completion := ⟨0, 0⟩

def unavailable : NSError := ⟨"FIRFirestoreErrorDomain", 14⟩

/-- A sign-up whose `setData` is answered with `error`. -/
def sampleSignUp (error : Option NSError) : List Action :=
  [.edit .nameTextField "user", .edit .emailTextField "user@example.com",
   .edit .passWordTextField "secret", .tapSignUpBT,
   .createUserResponse sampleRequest (.success "uid1"),
   .setDataResponse (SignUpFlow.profileRequest sampleRequest "uid1") error]

/-- A sign-up whose `createUser` is answered with an error. -/
def sampleRefused : List Action :=
  [.edit .nameTextField "user", .edit .emailTextField "user@example.com",
   .edit .passWordTextField "secret", .tapSignUpBT,
   .createUserResponse sampleRequest (.error weakPassword)]

theorem reported_success_complete_sampleSignUp :
    ∃ s, machine.run (initial noAccounts noDocuments) (sampleSignUp none) = some s ∧
      ∃ a uid, s.flow.attempts[0]? = some a ∧ (0, uid) ∈ s.flow.returned ∧
        s.flow.Registered a uid := by
  obtain ⟨s, hrun, hreport⟩ := Machine.exists_run_of_any machine (initial noAccounts noDocuments)
    (sampleSignUp none) (fun s => decide ((0, .success "Success") ∈ s.flow.completed)) (by decide)
  obtain ⟨a, uid, ha, huid, hregistered⟩ :=
    (reported_success_complete hrun).1 0 "Success" (of_decide_eq_true hreport)
  exact ⟨s, hrun, a, uid, ha, huid, hregistered [] s rfl⟩

/-- A sign-up that fails at `createUser` leaves nothing. -/
theorem failed_signUp_leaves_nothing_iff_sampleRefused :
    ∃ s, machine.run (initial noAccounts noDocuments) sampleRefused = some s ∧
      (0, .failure weakPassword) ∈ s.flow.completed ∧ s.flow.AllOrNothing 0 := by
  obtain ⟨s, hrun, hs⟩ := Machine.exists_run_of_any machine (initial noAccounts noDocuments)
    sampleRefused (fun s => decide ((0, .failure weakPassword) ∈ s.flow.completed)) (by decide)
  have hfailure := of_decide_eq_true hs
  refine ⟨s, hrun, hfailure, ?_⟩
  exact ((failed_signUp_leaves_nothing_iff hrun).1 0 weakPassword hfailure).2 (by simp [sampleRefused])

/-- The failure has been reported, the account is left without a document, and the retry the alert
    asks for cannot succeed. -/
theorem refused_setData_leaves_orphan :
    ∃ s, machine.run (initial noAccounts noDocuments) (sampleSignUp (some unavailable)) = some s ∧
      (0, .failure unavailable) ∈ s.flow.completed ∧ ¬ s.flow.AllOrNothing 0 ∧
      (0, "uid1") ∈ s.flow.returned ∧ s.flow.accounts.Has "uid1" ∧
      s.flow.firestore.document ⟨"User", "uid1"⟩ = none ∧
      ∃ s' r, machine.step s .tapSignUpBT = some s' ∧ r ∈ s'.flow.createUsers ∧
        ∀ uid, s'.flow.createUserResponse r (.success uid) = none := by
  obtain ⟨s, hrun, hs⟩ := Machine.exists_run_of_any machine (initial noAccounts noDocuments)
    (sampleSignUp (some unavailable)) (fun s => decide ((0, .failure unavailable) ∈ s.flow.completed ∧
      (0, "uid1") ∈ s.flow.returned ∧ s.flow.accounts.Has "uid1" ∧
      s.flow.firestore.document ⟨"User", "uid1"⟩ = none ∧
      s.flow.attempts.map Attempt.withEmail = ["user@example.com"] ∧
      (s.flow.tapSignUp 0 s.fields).createUsers.map (·.withEmail) = ["user@example.com"])) (by decide)
  obtain ⟨hfailure, huid, haccount, hdocument, hattempts, hretry⟩ := of_decide_eq_true hs
  have hinv := flow_inv hrun
  refine ⟨s, hrun, hfailure, ?_, huid, haccount, hdocument, ?_⟩
  · rw [hinv.records.allOrNothing_iff]
    intro hnone
    exact hnone "uid1" huid
  · obtain ⟨a, ha, haemail⟩ := List.map_eq_singleton_iff.1 hattempts
    obtain ⟨r, hr, hremail⟩ := List.map_eq_singleton_iff.1 hretry
    refine ⟨_, r, rfl, by simp [hr], fun uid => ?_⟩
    have htap : SignUpFlow.machine.run s.flow [.tapSignUp 0 s.fields]
        = some (s.flow.tapSignUp 0 s.fields) := rfl
    exact SignUpFlow.orphaned_blocks_retry hinv htap
      ⟨⟨_, hfailure⟩, "uid1", huid⟩ (by rw [ha]; rfl) (hremail.trans haemail.symm) uid

end SignUpScreen

end Harusali
