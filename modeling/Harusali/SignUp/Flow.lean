import Harusali.Controller.SignUpVC
import Harusali.Machine.Run

set_option autoImplicit false

/-! # Sign-up attempts and the two remote stores

`SignUpFlow` is the part of the program's state that sign-up attempts share, whichever
`SignUpVC` they started from: the account store, Firestore, and the requests in flight. Next to
it stands the log of an observer (`attempts`, `returned`, `completed`, `lost`), which no handler
reads.

Its machine interleaves taps on `signUpBT` (each with whatever the text fields of that screen
hold), the responses to both kinds of request, in any order, and the end of the process. -/

namespace Harusali

/-- One call of `signUp`: the text fields at the tap, and the address it passed to `createUser`. -/
structure Attempt where
  fields : SignUpVC
  withEmail : String
  deriving DecidableEq, Repr

structure SignUpFlow where
  accounts : Accounts
  firestore : Firestore
  createUsers : List CreateUserRequest
  setDatas : List SetDataRequest
  /-- The attempts made so far; an attempt is named by its index. -/
  attempts : List Attempt
  /-- The uids that `createUser` returned, each with the attempt it returned it to. -/
  returned : List (Nat × Uid)
  /-- The calls of the attempts' completion closures. -/
  completed : List (Nat × Result NSError)
  /-- The attempts whose pending answer died with the process. -/
  lost : List Nat

namespace SignUpFlow

def initial (accounts : Accounts) (firestore : Firestore) : SignUpFlow where
  accounts
  firestore
  createUsers := []
  setDatas := []
  attempts := []
  returned := []
  completed := []
  lost := []

/-! ## Operations -/

/-- A tap on the `signUpBT` of the controller numbered `signUpVC`. -/
def tapSignUp (s : SignUpFlow) (signUpVC : Nat) (fields : SignUpVC) : SignUpFlow :=
  match fields.signUpBtTap ⟨signUpVC, s.attempts.length⟩ with
  | none => s
  | some r =>
      { s with
        createUsers := s.createUsers ++ [r]
        attempts := s.attempts ++ [⟨fields, r.withEmail⟩] }

/-- What a completion block does to the requests in flight and to the log. -/
def perform (s : SignUpFlow) : Effect → SignUpFlow
  | .doNothing => s
  | .setData r => { s with setDatas := s.setDatas ++ [r] }
  | .completion c result => { s with completed := s.completed ++ [(c.attempt, result)] }

/-- The service answers a `createUser` request and its completion block runs. -/
def createUserResponse (s : SignUpFlow) (r : CreateUserRequest) (response : AuthResponse) :
    Option SignUpFlow :=
  if r ∈ s.createUsers then
    (s.accounts.createUser r.withEmail r.password response).map fun accounts =>
      { s with
        accounts
        createUsers := s.createUsers.erase r
        returned := s.returned ++ response.uid?.toList.map (r.completion.attempt, ·) }.perform
          (r.closure response.authResult response.nsError)
  else none

/-- Firestore answers a `setData` request and its completion block runs. -/
def setDataResponse (s : SignUpFlow) (r : SetDataRequest) (error : Option NSError) :
    Option SignUpFlow :=
  if r ∈ s.setDatas then
    some <| { s with
      firestore := s.firestore.setData r.path r.data error
      setDatas := s.setDatas.erase r }.perform (r.closure error)
  else none

/-- The process ends; the completion blocks of its requests will never run. -/
def terminate (s : SignUpFlow) : SignUpFlow :=
  { s with
    createUsers := []
    setDatas := []
    lost := s.lost ++ s.createUsers.map (·.completion.attempt)
      ++ s.setDatas.map (·.completion.attempt) }

inductive Action where
  | tapSignUp (signUpVC : Nat) (fields : SignUpVC)
  | createUserResponse (r : CreateUserRequest) (response : AuthResponse)
  | setDataResponse (r : SetDataRequest) (error : Option NSError)
  | terminate
  deriving DecidableEq, Repr

def machine : Machine SignUpFlow Action where
  step s
    | .tapSignUp signUpVC fields => some (s.tapSignUp signUpVC fields)
    | .createUserResponse r response => s.createUserResponse r response
    | .setDataResponse r error => s.setDataResponse r error
    | .terminate => some s.terminate

/-! ## What each operation does -/

/-- The dictionary the completion block of `r` builds. -/
def profileData (r : CreateUserRequest) : DocumentData :=
  [(UserReference.email, r.email), (UserReference.name, r.name), (UserReference.balance, r.balance)]

/-- The `setData` request the completion block of `r` makes for a new account. -/
def profileRequest (r : CreateUserRequest) (uid : Uid) : SetDataRequest where
  path := ⟨"User", uid⟩
  data := profileData r
  completion := r.completion

/-- What a step of the flow can do. A tap makes an attempt unless a guard fails; a `createUser`
    answer ends the attempt with the error, or makes the account and goes on to write its document;
    a `setData` answer ends the attempt either way. -/
inductive Step (s : SignUpFlow) : Action → SignUpFlow → Prop
  | tapNothing {signUpVC : Nat} {fields : SignUpVC}
      (hguard : fields.signUpBtTap ⟨signUpVC, s.attempts.length⟩ = none) :
      Step s (.tapSignUp signUpVC fields) s
  | tapSignUp {signUpVC : Nat} {fields : SignUpVC} {r : CreateUserRequest}
      (htap : fields.signUpBtTap ⟨signUpVC, s.attempts.length⟩ = some r) :
      Step s (.tapSignUp signUpVC fields)
        { s with
          createUsers := s.createUsers ++ [r]
          attempts := s.attempts ++ [⟨fields, r.withEmail⟩] }
  | createUserError {r : CreateUserRequest} {e : NSError} (hr : r ∈ s.createUsers) :
      Step s (.createUserResponse r (.error e))
        { s with
          createUsers := s.createUsers.erase r
          completed := s.completed ++ [(r.completion.attempt, .failure e)] }
  | createUserSuccess {r : CreateUserRequest} {uid : Uid} {accounts : Accounts}
      (hr : r ∈ s.createUsers)
      (hcreate : s.accounts.createUser r.withEmail r.password (.success uid) = some accounts) :
      Step s (.createUserResponse r (.success uid))
        { s with
          accounts
          createUsers := s.createUsers.erase r
          setDatas := s.setDatas ++ [profileRequest r uid]
          returned := s.returned ++ [(r.completion.attempt, uid)] }
  | setDataError {r : SetDataRequest} {e : NSError} (hr : r ∈ s.setDatas) :
      Step s (.setDataResponse r (some e))
        { s with
          setDatas := s.setDatas.erase r
          completed := s.completed ++ [(r.completion.attempt, .failure e)] }
  | setDataSuccess {r : SetDataRequest} (hr : r ∈ s.setDatas) :
      Step s (.setDataResponse r none)
        { s with
          firestore := s.firestore.setData r.path r.data none
          setDatas := s.setDatas.erase r
          completed := s.completed ++ [(r.completion.attempt, .success "Success")] }
  | terminate : Step s .terminate s.terminate

theorem step_of_tapSignUp (s : SignUpFlow) (signUpVC : Nat) (fields : SignUpVC) :
    Step s (.tapSignUp signUpVC fields) (s.tapSignUp signUpVC fields) := by
  unfold SignUpFlow.tapSignUp
  split
  · next hguard => exact .tapNothing hguard
  · next r htap => exact .tapSignUp htap

theorem step_of_createUserResponse {s s' : SignUpFlow} {r : CreateUserRequest}
    {response : AuthResponse} (h : s.createUserResponse r response = some s') :
    Step s (.createUserResponse r response) s' := by
  unfold createUserResponse at h
  split_ifs at h with hr
  rw [Option.map_eq_some_iff] at h
  obtain ⟨accounts, hcreate, rfl⟩ := h
  cases response with
  | error e =>
      rw [Accounts.createUser_error hcreate]
      simp only [AuthResponse.uid?, Option.toList_none, List.map_nil, List.append_nil]
      exact .createUserError hr
  | success uid => exact .createUserSuccess hr hcreate

theorem step_of_setDataResponse {s s' : SignUpFlow} {r : SetDataRequest} {error : Option NSError}
    (h : s.setDataResponse r error = some s') : Step s (.setDataResponse r error) s' := by
  unfold setDataResponse at h
  split_ifs at h with hr
  rw [Option.some.injEq] at h
  subst h
  cases error with
  | some e => exact .setDataError hr
  | none => exact .setDataSuccess hr

/-- **Inversion of the flow's step function.** -/
theorem step_of_machine {s s' : SignUpFlow} {action : Action}
    (h : machine.step s action = some s') : Step s action s' := by
  cases action with
  | tapSignUp signUpVC fields =>
      rw [← Option.some.inj h]
      exact step_of_tapSignUp s signUpVC fields
  | createUserResponse r response => exact step_of_createUserResponse h
  | setDataResponse r error => exact step_of_setDataResponse h
  | terminate =>
      rw [← Option.some.inj h]
      exact .terminate

/-- Only the end of the process loses an attempt. -/
theorem Step.lost_eq {s s' : SignUpFlow} {action : Action} (h : Step s action s')
    (hterminate : action ≠ .terminate) : s'.lost = s.lost := by
  cases h with
  | terminate => exact absurd rfl hterminate
  | _ => rfl

/-- Only a tap makes a `createUser` request. -/
theorem Step.createUsers_subset {s s' : SignUpFlow} {action : Action} (h : Step s action s')
    (htap : ∀ signUpVC fields, action ≠ .tapSignUp signUpVC fields) :
    s'.createUsers ⊆ s.createUsers := by
  cases h with
  | tapNothing hguard => exact absurd rfl (htap _ _)
  | tapSignUp h => exact absurd rfl (htap _ _)
  | createUserError hr => exact List.erase_subset
  | createUserSuccess hr hcreate => exact List.erase_subset
  | setDataError hr => exact List.Subset.refl _
  | setDataSuccess hr => exact List.Subset.refl _
  | terminate => exact List.nil_subset _

end SignUpFlow

end Harusali
