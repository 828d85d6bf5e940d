import Harusali.Machine.Pool
import Harusali.SignUp.Flow

set_option autoImplicit false

/-! # Invariants of the sign-up flow

Two invariants carry everything that is proved about attempts.

* `Ledger`: of its pending request, its report and its loss, every attempt has exactly one.
* `Records`: what the requests in flight captured, what `createUser` returned and what the stores
  hold all belong to the attempt they are filed under.

`Ledger` is kept on its own; `Records` needs it once, to know that an attempt whose `createUser`
has returned has no second request in flight. -/

namespace Harusali

/-- `data` is what attempt `a` is meant to store: the address it passed to `createUser`, the name
    typed at its tap and the initial balance. -/
structure Attempt.IsProfile (a : Attempt) (data : DocumentData) : Prop where
  email : data.lookup UserReference.email = some a.withEmail
  name : data.lookup UserReference.name = a.fields.nameTextField.text
  balance : data.lookup UserReference.balance = some a.fields.balance

namespace SignUpFlow

/-! ## The ledger -/

/-- The requests in flight that belong to attempt `k`. -/
def inFlight (s : SignUpFlow) (k : Nat) : Nat :=
  Pool.count (·.completion.attempt) s.createUsers k + Pool.count (·.completion.attempt) s.setDatas k

/-- How often the completion closure of attempt `k` has been called. -/
def reports (s : SignUpFlow) (k : Nat) : Nat :=
  Pool.count Prod.fst s.completed k

def losses (s : SignUpFlow) (k : Nat) : Nat :=
  Pool.count id s.lost k

/-- Every attempt is pending, reported or lost, and only one of these, once. -/
def Ledger (s : SignUpFlow) : Prop :=
  ∀ k, s.inFlight k + s.reports k + s.losses k = if k < s.attempts.length then 1 else 0

theorem ledger_initial (accounts : Accounts) (firestore : Firestore) :
    (initial accounts firestore).Ledger := by
  intro k
  simp [inFlight, reports, losses, initial]

theorem ledger_terminate {s : SignUpFlow} (h : s.Ledger) : s.terminate.Ledger := by
  intro k
  have hk := h k
  have hlost : s.terminate.losses k = s.losses k + s.inFlight k := by
    simp only [terminate, losses, inFlight, Pool.count, List.map_append, List.map_map,
      List.count_append, Function.id_comp]
    omega
  have hnone : s.terminate.inFlight k = 0 := rfl
  have hreports : s.terminate.reports k = s.reports k := rfl
  have hlength : s.terminate.attempts.length = s.attempts.length := rfl
  rw [hlost, hnone, hreports, hlength]
  omega

/-- A tap opens an entry; an answer moves the attempt's entry from one pool to the next. -/
theorem ledger_step {s s' : SignUpFlow} {action : Action} (h : s.Ledger)
    (hstep : machine.step s action = some s') : s'.Ledger := by
  intro k
  have hk := h k
  cases step_of_machine hstep with
  | tapNothing hguard => exact hk
  | @tapSignUp signUpVC fields r htap =>
      have hattempt : r.completion.attempt = s.attempts.length := by
        rw [(SignUpVC.signUpBtTap_eq_some htap).2.2.2.2.2]
      simp only [inFlight, reports, losses, Pool.count_append, Pool.count_singleton, hattempt,
        List.length_append, List.length_singleton] at hk ⊢
      split_ifs at hk ⊢ <;> omega
  | createUserError hr =>
      have herase := Pool.count_erase (·.completion.attempt) hr k
      simp only [inFlight, reports, losses, Pool.count_append, Pool.count_singleton] at hk ⊢
      omega
  | createUserSuccess hr hcreate =>
      have herase := Pool.count_erase (·.completion.attempt) hr k
      simp only [inFlight, reports, losses, Pool.count_append, Pool.count_singleton,
        profileRequest] at hk ⊢
      omega
  | setDataError hr =>
      have herase := Pool.count_erase (·.completion.attempt) hr k
      simp only [inFlight, reports, losses, Pool.count_append, Pool.count_singleton] at hk ⊢
      omega
  | setDataSuccess hr =>
      have herase := Pool.count_erase (·.completion.attempt) hr k
      simp only [inFlight, reports, losses, Pool.count_append, Pool.count_singleton] at hk ⊢
      omega
  | terminate => exact ledger_terminate h k

/-- Two `createUser` requests in flight never belong to one attempt. -/
theorem Ledger.attempt_ne_of_mem_erase {s : SignUpFlow} (h : s.Ledger) {r r' : CreateUserRequest}
    (hr : r ∈ s.createUsers) (hr' : r' ∈ s.createUsers.erase r) :
    r'.completion.attempt ≠ r.completion.attempt := by
  intro heq
  have hk := h r.completion.attempt
  have herase := Pool.count_erase (·.completion.attempt) hr r.completion.attempt
  have hpos := Pool.count_pos (·.completion.attempt) hr'
  simp only [heq, if_true] at herase hpos
  simp only [inFlight] at hk
  split_ifs at hk <;> omega

/-! ## The records -/

structure Records (s : SignUpFlow) : Prop where
  /-- A `createUser` request in flight has captured what its attempt is meant to store. -/
  createUser : ∀ r ∈ s.createUsers, ∃ a, s.attempts[r.completion.attempt]? = some a ∧
    r.withEmail = a.withEmail ∧ a.IsProfile (profileData r)
  /-- Nothing has been returned to an attempt whose `createUser` is in flight. -/
  unreturned : ∀ r ∈ s.createUsers, ∀ uid, (r.completion.attempt, uid) ∉ s.returned
  /-- A `setData` request in flight writes its attempt's profile to its attempt's document. -/
  setData : ∀ r ∈ s.setDatas, ∃ a uid, s.attempts[r.completion.attempt]? = some a ∧
    (r.completion.attempt, uid) ∈ s.returned ∧ r.path = ⟨"User", uid⟩ ∧ a.IsProfile r.data
  /-- A returned uid is the uid of an account with the address of the attempt. -/
  returned : ∀ k uid, (k, uid) ∈ s.returned → ∃ a password, s.attempts[k]? = some a ∧
    ⟨uid, a.withEmail, password⟩ ∈ s.accounts.all
  attempt_nodup : (s.returned.map Prod.fst).Nodup
  uid_nodup : (s.returned.map Prod.snd).Nodup
  /-- Behind a reported success stands the attempt's document. -/
  success : ∀ k value, (k, .success value) ∈ s.completed → ∃ a uid data,
    s.attempts[k]? = some a ∧ (k, uid) ∈ s.returned ∧
      s.firestore.document ⟨"User", uid⟩ = some data ∧ a.IsProfile data

theorem getElem?_append_of_eq_some {α : Type} {l : List α} {k : Nat} {a : α} (l' : List α)
    (h : l[k]? = some a) : (l ++ l')[k]? = some a := by
  obtain ⟨hk, -⟩ := List.getElem?_eq_some_iff.1 h
  rw [List.getElem?_append_left hk, h]

theorem records_initial (accounts : Accounts) (firestore : Firestore) :
    (initial accounts firestore).Records := by
  constructor <;> simp [initial]

/-- The request a tap sends has captured the profile of the attempt the tap starts. -/
theorem isProfile_of_signUpBtTap {fields : SignUpVC} {completion : Completion}
    {r : CreateUserRequest} (h : fields.signUpBtTap completion = some r) :
    Attempt.IsProfile ⟨fields, r.withEmail⟩ (profileData r) := by
  obtain ⟨-, -, hname, hemail, hbalance, -⟩ := SignUpVC.signUpBtTap_eq_some h
  exact
    { email := by rw [← hemail]; rfl
      name := hname.symm
      balance := by rw [← hbalance]; rfl }

theorem Records.tapSignUp {s : SignUpFlow} (h : s.Records) {fields : SignUpVC}
    {completion : Completion} {r : CreateUserRequest}
    (htap : fields.signUpBtTap completion = some r) (hnew : completion.attempt = s.attempts.length) :
    Records { s with
      createUsers := s.createUsers ++ [r]
      attempts := s.attempts ++ [⟨fields, r.withEmail⟩] } := by
  have hattempt : r.completion.attempt = s.attempts.length := by
    rw [(SignUpVC.signUpBtTap_eq_some htap).2.2.2.2.2, hnew]
  refine { h with createUser := ?_, unreturned := ?_, setData := ?_, returned := ?_, success := ?_ }
  · intro r' hr'
    rcases List.mem_append.1 hr' with hold | hlast
    · obtain ⟨a, ha, hrest⟩ := h.createUser r' hold
      exact ⟨a, getElem?_append_of_eq_some _ ha, hrest⟩
    · rw [List.mem_singleton.1 hlast]
      exact ⟨⟨fields, r.withEmail⟩, by simp [hattempt], rfl, isProfile_of_signUpBtTap htap⟩
  · intro r' hr' uid hreturned
    rcases List.mem_append.1 hr' with hold | hlast
    · exact h.unreturned r' hold uid hreturned
    -- the new attempt's number is past every attempt something was returned to
    · rw [List.mem_singleton.1 hlast, hattempt] at hreturned
      obtain ⟨a, -, ha, -⟩ := h.returned _ _ hreturned
      obtain ⟨hlt, -⟩ := List.getElem?_eq_some_iff.1 ha
      omega
  · intro r' hr'
    obtain ⟨a, uid, ha, hrest⟩ := h.setData r' hr'
    exact ⟨a, uid, getElem?_append_of_eq_some _ ha, hrest⟩
  · intro k uid hk
    obtain ⟨a, password, ha, hrest⟩ := h.returned k uid hk
    exact ⟨a, password, getElem?_append_of_eq_some _ ha, hrest⟩
  · intro k value hk
    obtain ⟨a, uid, data, ha, hrest⟩ := h.success k value hk
    exact ⟨a, uid, data, getElem?_append_of_eq_some _ ha, hrest⟩

/-- Reporting a failure takes a request away and adds nothing the records speak of. -/
theorem Records.failure {s : SignUpFlow} (h : s.Records) (k : Nat) (e : NSError)
    {createUsers : List CreateUserRequest} {setDatas : List SetDataRequest}
    (hcreateUsers : createUsers ⊆ s.createUsers) (hsetDatas : setDatas ⊆ s.setDatas) :
    Records { s with createUsers, setDatas, completed := s.completed ++ [(k, .failure e)] } := by
  refine { h with createUser := ?_, unreturned := ?_, setData := ?_, success := ?_ }
  · intro r hr
    exact h.createUser r (hcreateUsers hr)
  · intro r hr
    exact h.unreturned r (hcreateUsers hr)
  · intro r hr
    exact h.setData r (hsetDatas hr)
  · intro k' value hk'
    rw [List.mem_append] at hk'
    rcases hk' with hold | hlast
    · exact h.success k' value hold
    · simp at hlast

theorem Records.createUserSuccess {s : SignUpFlow} (h : s.Records) (hledger : s.Ledger)
    {r : CreateUserRequest} {uid : Uid} {accounts : Accounts} (hr : r ∈ s.createUsers)
    (hcreate : s.accounts.createUser r.withEmail r.password (.success uid) = some accounts) :
    Records { s with
      accounts
      createUsers := s.createUsers.erase r
      setDatas := s.setDatas ++ [profileRequest r uid]
      returned := s.returned ++ [(r.completion.attempt, uid)] } := by
  obtain ⟨hfresh, -, hall⟩ := Accounts.createUser_success hcreate
  obtain ⟨a, ha, hemail, hprofile⟩ := h.createUser r hr
  have hkept : ∀ account ∈ s.accounts.all, account ∈ accounts.all :=
    Accounts.createUser_subset hcreate
  have huid : uid ∉ s.returned.map Prod.snd := by
    intro hin
    obtain ⟨⟨k, _⟩, hk, rfl⟩ := List.mem_map.1 hin
    obtain ⟨_, _, -, haccount⟩ := h.returned k _ hk
    exact hfresh (List.mem_map_of_mem (f := Account.uid) haccount)
  have hattempt : r.completion.attempt ∉ s.returned.map Prod.fst := by
    intro hin
    obtain ⟨⟨_, uid'⟩, hk, heq⟩ := List.mem_map.1 hin
    exact h.unreturned r hr uid' (by rw [← heq]; exact hk)
  refine ⟨?_, ?_, ?_, ?_, ?_, ?_, ?_⟩
  · intro r' hr'
    exact h.createUser r' (List.mem_of_mem_erase hr')
  · intro r' hr' uid' hreturned
    rcases List.mem_append.1 hreturned with hold | hlast
    · exact h.unreturned r' (List.mem_of_mem_erase hr') uid' hold
    -- a second request of the same attempt would be one entry too many in the ledger
    · have heq : r'.completion.attempt = r.completion.attempt := by
        simpa using congrArg Prod.fst (List.mem_singleton.1 hlast)
      exact hledger.attempt_ne_of_mem_erase hr hr' heq
  · intro r' hr'
    rcases List.mem_append.1 hr' with hold | hlast
    · obtain ⟨a', uid', ha', hreturned, hrest⟩ := h.setData r' hold
      exact ⟨a', uid', ha', List.mem_append_left _ hreturned, hrest⟩
    · rw [List.mem_singleton.1 hlast]
      exact ⟨a, uid, ha, List.mem_append_right _ (List.mem_singleton.2 rfl), rfl, hprofile⟩
  · intro k uid' hk
    rcases List.mem_append.1 hk with hold | hlast
    · obtain ⟨a', password, ha', haccount⟩ := h.returned k uid' hold
      exact ⟨a', password, ha', hkept _ haccount⟩
    · obtain ⟨rfl, rfl⟩ := Prod.mk.inj (List.mem_singleton.1 hlast)
      refine ⟨a, r.password, ha, ?_⟩
      rw [hall, ← hemail]
      exact List.mem_append_right _ (List.mem_singleton.2 rfl)
  · simpa [List.nodup_append] using ⟨h.attempt_nodup, fun k uid' hk heq =>
      hattempt (List.mem_map.2 ⟨(k, uid'), hk, heq⟩)⟩
  · simpa [List.nodup_append] using ⟨h.uid_nodup, fun uid' k hk heq =>
      huid (List.mem_map.2 ⟨(k, uid'), hk, heq⟩)⟩
  · intro k value hk
    obtain ⟨a', uid', data, ha', hreturned, hrest⟩ := h.success k value hk
    exact ⟨a', uid', data, ha', List.mem_append_left _ hreturned, hrest⟩

/-- A document is written by its own attempt only, so every profile already reported is kept. -/
theorem Records.setDataSuccess {s : SignUpFlow} (h : s.Records) {r : SetDataRequest}
    (hr : r ∈ s.setDatas) (value : String) :
    Records { s with
      firestore := s.firestore.setData r.path r.data none
      setDatas := s.setDatas.erase r
      completed := s.completed ++ [(r.completion.attempt, .success value)] } := by
  obtain ⟨a, uid, ha, hreturned, hpath, hprofile⟩ := h.setData r hr
  have hwritten : (s.firestore.setData r.path r.data none).document ⟨"User", uid⟩ = some r.data := by
    rw [← hpath]
    exact Firestore.setData_self s.firestore r.path r.data
  refine { h with setData := ?_, success := ?_ }
  · intro r' hr'
    exact h.setData r' (List.mem_of_mem_erase hr')
  · intro k value' hk
    rcases List.mem_append.1 hk with hold | hlast
    · obtain ⟨a', uid', data, ha', hreturned', hdocument, hprofile'⟩ := h.success k value' hold
      by_cases huid : uid' = uid
      -- the same uid was returned to the same attempt, whose profile is being written
      · subst huid
        have hsame : (k, uid') = (r.completion.attempt, uid') :=
          List.inj_on_of_nodup_map h.uid_nodup hreturned' hreturned rfl
        obtain rfl : k = r.completion.attempt := congrArg Prod.fst hsame
        exact ⟨a, uid', r.data, ha, hreturned', hwritten, hprofile⟩
      · refine ⟨a', uid', data, ha', hreturned', ?_, hprofile'⟩
        rw [Firestore.setData_of_ne _ _ _ (by simpa [hpath] using huid)]
        exact hdocument
    · obtain ⟨rfl, -⟩ := Prod.mk.inj (List.mem_singleton.1 hlast)
      exact ⟨a, uid, r.data, ha, hreturned, hwritten, hprofile⟩

theorem Records.terminate {s : SignUpFlow} (h : s.Records) : s.terminate.Records :=
  { h with
    createUser := by simp [SignUpFlow.terminate]
    unreturned := by simp [SignUpFlow.terminate]
    setData := by simp [SignUpFlow.terminate] }

theorem records_step {s s' : SignUpFlow} {action : Action} (h : s.Records) (hledger : s.Ledger)
    (hstep : machine.step s action = some s') : s'.Records := by
  cases step_of_machine hstep with
  | tapNothing hguard => exact h
  | tapSignUp htap => exact h.tapSignUp htap rfl
  | createUserError hr => exact h.failure _ _ List.erase_subset (List.Subset.refl _)
  | createUserSuccess hr hcreate => exact h.createUserSuccess hledger hr hcreate
  | setDataError hr => exact h.failure _ _ (List.Subset.refl _) List.erase_subset
  | setDataSuccess hr => exact h.setDataSuccess hr _
  | terminate => exact h.terminate

/-! ## Both, along runs -/

structure Inv (s : SignUpFlow) : Prop where
  ledger : s.Ledger
  records : s.Records

theorem inv_initial (accounts : Accounts) (firestore : Firestore) :
    (initial accounts firestore).Inv :=
  ⟨ledger_initial accounts firestore, records_initial accounts firestore⟩

theorem inv_step {s s' : SignUpFlow} {action : Action} (h : s.Inv)
    (hstep : machine.step s action = some s') : s'.Inv :=
  ⟨ledger_step h.ledger hstep, records_step h.records h.ledger hstep⟩

/-- **Every reachable state of the flow satisfies the invariant.** -/
theorem inv_run {s s' : SignUpFlow} {actions : List Action} (h : s.Inv)
    (hrun : machine.run s actions = some s') : s'.Inv :=
  Machine.run_preserves (fun _ _ _ hstep hinv => inv_step hinv hstep) hrun h

end SignUpFlow

end Harusali
