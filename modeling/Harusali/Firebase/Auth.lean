import Mathlib.Data.List.Nodup

set_option autoImplicit false

/-! # Firebase Auth

Two parties. `FIRAuth` is the client object behind `Auth.auth()`, translated from the vendored
`FIRAuth.m`: it holds the session (`currentUser`), keeps it in the keychain for the next
process, and updates it before the app's completion block runs. `Accounts` is the remote account
store, of which only the assumed contract is stated: creating an account uses a fresh uid and an
unused address, or creates nothing and answers with an error. -/

namespace Harusali

abbrev Uid := String

structure NSError where
  domain : String
  code : Int
  deriving DecidableEq, Repr

/-- `FIRUser`; of its properties the app reads the uid only. -/
structure User where
  uid : Uid
  deriving DecidableEq, Repr

structure AuthDataResult where
  user : User
  deriving DecidableEq, Repr

/-! ## Errors answered without contacting the service -/

def authError (code : Int) : NSError := ⟨"FIRAuthErrorDomain", code⟩

def wrongPassword : NSError := authError 17009
def weakPassword : NSError := authError 17026
def missingEmail : NSError := authError 17034

/-- `internalCreateUserWithEmail:password:completion:` up to the point where the request is sent. -/
def internalCreateUserWithEmail (email password : String) : Option NSError :=
  if password = "" then some weakPassword
  else if email = "" then some missingEmail
  else none

/-- `signInWithEmail:password:callback:` up to the point where the request is sent. -/
def signInWithEmail (password : String) : Option NSError :=
  if password = "" then some wrongPassword else none

/-! ## The session -/

/-- The instance variables of `FIRAuth` that the session lives in: the user in memory and the one in
    the keychain. -/
structure FIRAuth where
  currentUser : Option User
  keychain : Option User
  deriving DecidableEq, Repr

namespace FIRAuth

/-- `saveUser:error:`. The argument `keychainError` is what the keychain call reports. -/
def saveUser (auth : FIRAuth) (user : Option User) (keychainError : Option NSError) :
    FIRAuth × Bool :=
  match keychainError with
  | some _ => (auth, false)
  | none => ({ auth with keychain := user }, true)

/-- `updateCurrentUser:byForce:savingToDisk:error:`. Its first test compares object identity; the
    callers pass `nil` or a newly made object, so it succeeds only between `nil` and `nil`. -/
def updateCurrentUser (auth : FIRAuth) (user : Option User) (force saveToDisk : Bool)
    (keychainError : Option NSError) : FIRAuth × Bool :=
  if user = none ∧ auth.currentUser = none then (auth, true)
  else
    let (auth, success) := if saveToDisk then auth.saveUser user keychainError else (auth, true)
    if success || force then ({ auth with currentUser := user }, success) else (auth, success)

/-- `signOut:`. -/
def signOut (auth : FIRAuth) (keychainError : Option NSError) : FIRAuth × Bool :=
  match auth.currentUser with
  | none => (auth, true)
  | some _ => auth.updateCurrentUser none false true keychainError

/-- The block made by `signInFlowAuthDataResultCallbackByDecoratingCallback:`: it updates the
    session and returns what the app's completion block is called with. -/
def signInFlowCallback (auth : FIRAuth) (authResult : Option AuthDataResult)
    (error keychainError : Option NSError) : FIRAuth × Option AuthDataResult × Option NSError :=
  match error with
  | some error => (auth, none, some error)
  | none =>
      match auth.updateCurrentUser (authResult.map (·.user)) false true keychainError with
      | (auth, false) => (auth, none, keychainError)
      | (auth, true) => (auth, authResult, none)

/-- `initWithAPIKey:appName:` in a new process: the user is read back from the keychain, and stays
    `nil` when the keychain cannot be read. -/
def initWithAPIKey (keychain : Option User) (keychainError : Option NSError) : FIRAuth :=
  let auth : FIRAuth := { currentUser := none, keychain }
  match keychainError with
  | some _ => auth
  | none => (auth.updateCurrentUser keychain false false none).1

/-! ### What the app may rely on -/

/-- A reported success has made the account current before the completion block runs. -/
theorem signInFlowCallback_success (auth : FIRAuth) (result : AuthDataResult) :
    auth.signInFlowCallback (some result) none none
      = (⟨some result.user, some result.user⟩, some result, none) := by
  simp [signInFlowCallback, updateCurrentUser, saveUser]

/-- A session the keychain does not accept is reported as that error, with the session unchanged. -/
theorem signInFlowCallback_keychainError (auth : FIRAuth) (result : AuthDataResult)
    (error : NSError) :
    auth.signInFlowCallback (some result) none (some error) = (auth, none, some error) := by
  simp [signInFlowCallback, updateCurrentUser, saveUser]

/-- `signOut` has nothing to do, clears the session, or throws and leaves it. -/
theorem signOut_cases (auth : FIRAuth) (keychainError : Option NSError) :
    (auth.currentUser = none ∧ auth.signOut keychainError = (auth, true)) ∨
      (auth.currentUser ≠ none ∧ keychainError = none ∧
        auth.signOut keychainError = (⟨none, none⟩, true)) ∨
      (auth.currentUser ≠ none ∧ keychainError ≠ none ∧
        auth.signOut keychainError = (auth, false)) := by
  cases huser : auth.currentUser with
  | none => exact Or.inl ⟨rfl, by simp [signOut, huser]⟩
  | some user =>
      refine Or.inr ?_
      cases keychainError with
      | none => exact Or.inl (by simp [signOut, huser, updateCurrentUser, saveUser])
      | some error => exact Or.inr (by simp [signOut, huser, updateCurrentUser, saveUser])

/-- `signOut` throws only if there is a session and the keychain fails. -/
theorem signOut_ok_iff (auth : FIRAuth) (keychainError : Option NSError) :
    (auth.signOut keychainError).2 = true ↔ auth.currentUser = none ∨ keychainError = none := by
  rcases auth.signOut_cases keychainError with ⟨huser, heq⟩ | ⟨-, hnone, heq⟩ | ⟨huser, herror, heq⟩
  · rw [heq]
    exact ⟨fun _ => Or.inl huser, fun _ => rfl⟩
  · rw [heq]
    exact ⟨fun _ => Or.inr hnone, fun _ => rfl⟩
  · simp [heq, huser, herror]

theorem signOut_currentUser (auth : FIRAuth) (keychainError : Option NSError) :
    (auth.signOut keychainError).1.currentUser
      = if (auth.signOut keychainError).2 then none else auth.currentUser := by
  rcases auth.signOut_cases keychainError with ⟨huser, heq⟩ | ⟨-, -, heq⟩ | ⟨-, -, heq⟩
  · simp [heq, huser]
  · simp [heq]
  · simp [heq]

@[simp] theorem initWithAPIKey_currentUser (keychain : Option User)
    (keychainError : Option NSError) :
    (initWithAPIKey keychain keychainError).currentUser
      = if keychainError = none then keychain else none := by
  cases keychainError with
  | none => cases keychain <;> simp [initWithAPIKey, updateCurrentUser]
  | some error => rfl

@[simp] theorem initWithAPIKey_keychain (keychain : Option User) (keychainError : Option NSError) :
    (initWithAPIKey keychain keychainError).keychain = keychain := by
  cases keychainError with
  | none => cases keychain <;> simp [initWithAPIKey, updateCurrentUser]
  | some error => rfl

/-- The user is logged in or kept in the keychain. -/
def Knows (auth : FIRAuth) (user : User) : Prop :=
  auth.currentUser = some user ∨ auth.keychain = some user

theorem knows_of_initWithAPIKey {keychain : Option User} {keychainError : Option NSError}
    {user : User} (h : (initWithAPIKey keychain keychainError).Knows user) :
    keychain = some user := by
  rcases h with h | h
  · rw [initWithAPIKey_currentUser] at h
    split_ifs at h
    exact h
  · rwa [initWithAPIKey_keychain] at h

end FIRAuth

/-! ## The account store -/

structure Account where
  uid : Uid
  email : String
  password : String
  deriving DecidableEq, Repr

/-- The accounts of the project. No two share a uid and, as the console's default demands, no two
    share an address. -/
structure Accounts where
  all : List Account
  uid_nodup : (all.map Account.uid).Nodup
  email_nodup : (all.map Account.email).Nodup

/-- How the service answers `createUser` or `signIn`. -/
inductive AuthResponse where
  | success (uid : Uid)
  | error (error : NSError)
  deriving DecidableEq, Repr

namespace AuthResponse

def authResult : AuthResponse → Option AuthDataResult
  | .success uid => some ⟨⟨uid⟩⟩
  | .error _ => none

def nsError : AuthResponse → Option NSError
  | .success _ => none
  | .error e => some e

/-- The uid of the account a success signs in. -/
def uid? : AuthResponse → Option Uid
  | .success uid => some uid
  | .error _ => none

end AuthResponse

namespace Accounts

def Has (store : Accounts) (uid : Uid) : Prop := uid ∈ store.all.map Account.uid

def InUse (store : Accounts) (email : String) : Prop := email ∈ store.all.map Account.email

instance (store : Accounts) (uid : Uid) : Decidable (store.Has uid) :=
  inferInstanceAs (Decidable (uid ∈ store.all.map Account.uid))

instance (store : Accounts) (email : String) : Decidable (store.InUse email) :=
  inferInstanceAs (Decidable (email ∈ store.all.map Account.email))

theorem nodup_map_append_singleton {κ : Type} {f : Account → κ} {l : List Account} {a : Account}
    (hl : (l.map f).Nodup) (ha : f a ∉ l.map f) : ((l ++ [a]).map f).Nodup := by
  rw [List.map_append, List.nodup_append]
  refine ⟨hl, List.nodup_singleton _, fun x hx y hy heq => ha ?_⟩
  obtain rfl : y = f a := by simpa using hy
  rwa [← heq]

/-- A new account, if its uid is fresh and its address unused. -/
def add? (store : Accounts) (account : Account) : Option Accounts :=
  if h : ¬ store.Has account.uid ∧ ¬ store.InUse account.email then
    some { all := store.all ++ [account]
           uid_nodup := nodup_map_append_singleton store.uid_nodup h.1
           email_nodup := nodup_map_append_singleton store.email_nodup h.2 }
  else none

/-- The store after the service has answered `createUser`, `none` for an answer it never gives. -/
def createUser (store : Accounts) (email password : String) : AuthResponse → Option Accounts
  | .success uid =>
      match internalCreateUserWithEmail email password with
      | none => store.add? ⟨uid, email, password⟩
      | some _ => none
  | .error _ => some store

/-- Whether the service may answer `signIn` this way. -/
def signIn (store : Accounts) (email password : String) : AuthResponse → Bool
  | .success uid => (signInWithEmail password).isNone && decide (⟨uid, email, password⟩ ∈ store.all)
  | .error _ => true

theorem add?_eq_some {store store' : Accounts} {account : Account}
    (h : store.add? account = some store') :
    ¬ store.Has account.uid ∧ ¬ store.InUse account.email ∧ store'.all = store.all ++ [account] := by
  unfold add? at h
  split at h
  · next hfresh =>
      obtain rfl := Option.some.inj h
      exact ⟨hfresh.1, hfresh.2, rfl⟩
  · exact absurd h (by simp)

/-- What a reported account creation has done to the store. -/
theorem createUser_success {store store' : Accounts} {email password : String} {uid : Uid}
    (h : store.createUser email password (.success uid) = some store') :
    ¬ store.Has uid ∧ ¬ store.InUse email ∧ store'.all = store.all ++ [⟨uid, email, password⟩] := by
  simp only [createUser] at h
  split at h
  · exact add?_eq_some h
  · exact absurd h (by simp)

theorem createUser_error {store store' : Accounts} {email password : String} {error : NSError}
    (h : store.createUser email password (.error error) = some store') : store' = store :=
  (Option.some.inj h).symm

/-- While an address is in use the service can only refuse to create another account for it. -/
theorem createUser_of_inUse {store : Accounts} {email password : String} {uid : Uid}
    (h : store.InUse email) : store.createUser email password (.success uid) = none := by
  cases hcreate : store.createUser email password (.success uid) with
  | none => rfl
  | some store' => exact absurd h (createUser_success hcreate).2.1

/-- No answer of the service removes an account. -/
theorem createUser_subset {store store' : Accounts} {email password : String}
    {response : AuthResponse} (h : store.createUser email password response = some store') :
    ∀ account ∈ store.all, account ∈ store'.all := by
  intro account hmem
  cases response with
  | error error =>
      rw [createUser_error h]
      exact hmem
  | success uid =>
      rw [(createUser_success h).2.2]
      exact List.mem_append_left _ hmem

theorem Has.mono {store store' : Accounts} {uid : Uid} (h : store.Has uid)
    (hsubset : ∀ account ∈ store.all, account ∈ store'.all) : store'.Has uid := by
  obtain ⟨account, hmem, huid⟩ := List.mem_map.1 h
  exact List.mem_map.2 ⟨account, hsubset account hmem, huid⟩

end Accounts

end Harusali
