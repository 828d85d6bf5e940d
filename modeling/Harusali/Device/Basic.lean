import Harusali.Device.Credentials
import Harusali.Machine.SerialQueue

set_option autoImplicit false

/-! # The device

The whole way of a profile document: the sign-up screen creates an account, Auth makes it the
session and notifies the Firestore client, and the completion block on the main queue hands the
document to the client, which writes it through its queue. Three serial queues take part. Auth
works on its own queue, the app and the credentials provider on the main queue, the client on
its worker queue; what one hands to another is a task there. The machine interleaves the queues,
the calls and timers of the client, the service, and the end of the process.

Auth's queue is not spelled out: any of its blocks may be next once the stored user is loaded,
except that the `GetToken` calls are taken in turn. Of the account service this assumes that it
gives no account the empty uid. -/

namespace Harusali

/-- A block on the main queue. -/
inductive MainTask where
  | authStateDidChange (uid : Option Uid)
  /-- The block of a `GetToken` call. -/
  | getTokenCallback (getToken : GetToken) (token : Option AccessToken) (error : Option NSError)
  /-- The completion block of `createUser`. -/
  | createUserCompletion (r : CreateUserRequest) (result : Option AuthDataResult)
      (error : Option NSError)
  /-- The completion block of a `setData`, which made the write with this number. -/
  | setDataCompletion (write : Nat) (status : Firestore.Status)
  deriving DecidableEq

/-- An operation on the worker queue. -/
inductive WorkerTask where
  | initializeClient (user : Firestore.User)
  | handleCredentialChange (user : Firestore.User)
  | resumeStartWithCredentials (initialCloseCount : Nat)
      (maybeToken : Except Firestore.Status Firestore.Token)
  | writeMutations (r : SetDataRequest)

structure Device where
  auth : NotifyingAuth
  /-- Whether the stored user has been loaded in this process. -/
  loaded : Bool
  mainQueue : List MainTask
  contents : Contents
  /-- Whether the provider has a `change_listener_`; it has from when the client is created. -/
  changeListener : Bool
  /-- The `GetToken` calls Auth has not looked at yet. -/
  dispatched : List GetToken
  /-- The `GetToken` calls that wait for the token of a user. -/
  fetching : List (GetToken × Uid)
  workerQueue : List WorkerTask
  /-- Whether `FirestoreClient::Initialize` has run in this process. Until it has, the client in
      `system` is the one the last process has left. -/
  initialized : Bool
  system : Firestore.System
  /-- The `createUser` calls in flight. -/
  createUsers : List CreateUserRequest
  /-- The taps on `signUpBT`. -/
  attempts : Nat
  /-- The `setData` calls by the number of the write they made. -/
  setDatas : List SetDataRequest
  /-- The calls of the completion closures of `signUp`. -/
  completed : List (Completion × Result NSError)

/-- `MakeNSError`. The constructors of `Error` stand in the order of the codes. -/
def makeNSError (status : Firestore.Status) : Option NSError :=
  if status.code = .ok then none
  else some ⟨"FIRFirestoreErrorDomain", status.code.ctorIdx⟩

namespace Device

inductive Action where
  /-- A tap on the `signUpBT` of the controller numbered `signUpVC`. -/
  | signUpBtTap (signUpVC : Nat) (fields : SignUpVC)
  | createUserResponse (r : CreateUserRequest) (response : AuthResponse) (serial : Nat)
      (keychainError : Option NSError)
  /-- The answer to a `signIn`, whose completion block does not touch Firestore. -/
  | signInResponse (response : AuthResponse) (serial : Nat) (keychainError : Option NSError)
  | signOut (keychainError : Option NSError)
  | loadUser (serial : Nat) (keychainError : Option NSError)
  /-- Auth looks at the next `GetToken` call. -/
  | getTokenForcingRefresh
  | getTokenReply (fetch : Nat) (isCurrent : Bool) (reply : TokenReply)
  /-- The reply to a fetch of a token that no `GetToken` call made. -/
  | tokenReply (uid : Uid) (isCurrent : Bool) (reply : TokenReply)
  | runMain
  | runWorker
  /-- An event of a call or a timer of the client, or a step of the service. -/
  | client (a : Firestore.System.Action)
  /-- The process ends and a new one starts. The stored user may be loaded before the provider
      reads the uid for the first time; `early` is how that goes. -/
  | relaunch (early : Option (Nat × Option NSError))

/-! ## The main queue -/

/-- The listener `FirestoreClient::Create` makes. -/
def credentialChange (self : Device) (user : Firestore.User) : Device :=
  { self with workerQueue := self.workerQueue ++ [.handleCredentialChange user] }

/-- `EnsureClientConfigured`. Setting the listener calls it for the first time. -/
def ensureClientConfigured (self : Device) : Device :=
  if self.changeListener then self
  else { self with
    workerQueue := self.workerQueue ++ [.initializeClient self.contents.currentUser]
    changeListener := true }

/-- What a completion block of `signUp` does. -/
def perform (self : Device) : Effect → Device
  | .doNothing => self
  | .setData r =>
      let self := self.ensureClientConfigured
      { self with workerQueue := self.workerQueue ++ [.writeMutations r] }
  | .completion c result => { self with completed := self.completed ++ [(c, result)] }

/-- The block `FirebaseCredentialsProvider::GetToken` hands to Auth. -/
def getTokenCallback (self : Device) (getToken : GetToken) (token : Option AccessToken)
    (error : Option NSError) : Device :=
  if getToken.initialTokenCounter ≠ self.contents.tokenCounter then
    { self with dispatched :=
        self.dispatched ++ [{ getToken with initialTokenCounter := self.contents.tokenCounter }] }
  else
    let maybeToken : Except Firestore.Status Firestore.Token :=
      match error with
      | some _ => .error Contents.tokenError
      | none => .ok (token.map (·.uid))
    { self with workerQueue :=
        self.workerQueue ++ [.resumeStartWithCredentials getToken.initialCloseCount maybeToken] }

def runMainTask (self : Device) : MainTask → Device
  | .authStateDidChange uid =>
      let contents := self.contents.authStateDidChange uid
      let self := { self with contents }
      if self.changeListener then self.credentialChange contents.currentUser else self
  | .getTokenCallback getToken token error => self.getTokenCallback getToken token error
  | .createUserCompletion r result error => self.perform (r.closure result error)
  | .setDataCompletion write status =>
      match self.setDatas[write]? with
      | none => self
      | some r => self.perform (r.closure (makeNSError status))

/-! ## The worker queue -/

/-- The device after the client has acted: its new `GetToken` calls go to Auth, the callbacks it has
    called to the main queue. -/
def withSystem (self : Device) (a : Firestore.System.Action) (system : Firestore.System) : Device :=
  let getTokens := system.client.writeStream.getTokens.drop (self.system.kept a).length
  let notified := system.client.notified.drop self.system.client.notified.length
  { self with
    system
    dispatched := self.dispatched ++ getTokens.map fun n => ⟨n, self.contents.tokenCounter⟩
    mainQueue := self.mainQueue ++ notified.map fun p => .setDataCompletion p.1.write p.2 }

def clientStep (self : Device) (a : Firestore.System.Action) : Option (Except String Device) :=
  (self.system.step a).map fun system => system.map (self.withSystem a)

def runWorkerTask (self : Device) : WorkerTask → Option (Except String Device)
  | .initializeClient user => { self with initialized := true }.clientStep (.restart user)
  | .handleCredentialChange user => self.clientStep (.credentialChange user)
  | .resumeStartWithCredentials n maybeToken => self.clientStep (.resumeStart n maybeToken)
  | .writeMutations r =>
      { self with setDatas := self.setDatas ++ [r] }.clientStep (.setData r.path r.data)

/-! ## Auth -/

/-- Auth posts notifications. -/
def notify (self : Device) (auth : NotifyingAuth) (posted : List (Option Uid)) : Device :=
  { self with auth, mainQueue := self.mainQueue ++ posted.map .authStateDidChange }

def loadUser (self : Device) (serial : Nat) (keychainError : Option NSError) : Device :=
  let (auth, posted) := self.auth.loadUser serial keychainError
  { self.notify auth posted with loaded := true }

/-- A new process up to the end of `application(_:didFinishLaunchingWithOptions:)`: Auth is made and,
    with `Firestore.firestore()`, the credentials provider. -/
def launch (self : Device) (early : Option (Nat × Option NSError)) : Device :=
  let self := { self with
    auth :=
      { currentUser := none
        keychain := self.auth.keychain
        rawAccessToken := none
        lastNotifiedUserToken := none }
    loaded := false
    mainQueue := []
    changeListener := false
    dispatched := []
    fetching := []
    workerQueue := []
    initialized := false
    createUsers := [] }
  let self := match early with
    | some (serial, keychainError) => self.loadUser serial keychainError
    | none => self
  { self with contents :=
      { currentUser := .fromUid (self.auth.currentUser.map (·.uid)), tokenCounter := 0 } }

/-! ## The machine -/

/-- Whether a fetch of a token is by the current user. -/
def MayReply (self : Device) (uid : Uid) (isCurrent : Bool) : Prop :=
  isCurrent = true → self.auth.currentUser = some ⟨uid⟩

instance (self : Device) (uid : Uid) (isCurrent : Bool) : Decidable (self.MayReply uid isCurrent) :=
  inferInstanceAs (Decidable (_ → _))

/-- The actions that no queue of the app hands to the client. -/
def isEvent (self : Device) : Firestore.System.Action → Bool
  | .streamRead | .streamFinish _ | .backoffElapsed | .idleTimeout => self.initialized
  | .serve _ | .serveReleased _ _ => true
  | _ => false

def step (self : Device) : Action → Option (Except String Device)
  | .signUpBtTap signUpVC fields =>
      match fields.signUpBtTap ⟨signUpVC, self.attempts⟩ with
      | none => none
      | some r => some <| .ok { self with
          createUsers := self.createUsers ++ [r]
          attempts := self.attempts + 1 }
  | .createUserResponse r response serial keychainError =>
      if self.loaded ∧ r ∈ self.createUsers ∧ response.uid? ≠ some "" then
        let (auth, posted, result, error) :=
          self.auth.signInFlowCallback response serial keychainError
        let self := { self.notify auth posted with createUsers := self.createUsers.erase r }
        some <| .ok { self with
          mainQueue := self.mainQueue ++ [.createUserCompletion r result error] }
      else none
  | .signInResponse response serial keychainError =>
      if self.loaded ∧ response.uid? ≠ some "" then
        let (auth, posted, _) := self.auth.signInFlowCallback response serial keychainError
        some <| .ok <| self.notify auth posted
      else none
  | .signOut keychainError =>
      if self.loaded then
        let (auth, posted) := self.auth.signOut keychainError
        some <| .ok <| self.notify auth posted
      else none
  | .loadUser serial keychainError =>
      if self.loaded then none else some <| .ok <| self.loadUser serial keychainError
  | .getTokenForcingRefresh =>
      match self.loaded, self.dispatched with
      | true, getToken :: dispatched =>
          match self.auth.currentUser with
          | none => some <| .ok { self with
              dispatched
              mainQueue := self.mainQueue ++ [.getTokenCallback getToken none none] }
          | some user => some <| .ok { self with
              dispatched
              fetching := self.fetching ++ [(getToken, user.uid)] }
      | _, _ => none
  | .getTokenReply i isCurrent reply =>
      match self.fetching[i]? with
      | none => none
      | some (getToken, uid) =>
          if self.MayReply uid isCurrent then
            let (auth, posted, token, error) := self.auth.internalGetToken uid isCurrent reply
            let self := { self.notify auth posted with fetching := self.fetching.eraseIdx i }
            some <| .ok { self with
              mainQueue := self.mainQueue ++ [.getTokenCallback getToken token error] }
          else none
  | .tokenReply uid isCurrent reply =>
      if self.loaded ∧ self.MayReply uid isCurrent then
        let (auth, posted, _) := self.auth.internalGetToken uid isCurrent reply
        some <| .ok <| self.notify auth posted
      else none
  | .runMain =>
      match self.mainQueue with
      | [] => none
      | task :: mainQueue => some <| .ok <| { self with mainQueue }.runMainTask task
  | .runWorker =>
      match self.workerQueue with
      | [] => none
      | task :: workerQueue => { self with workerQueue }.runWorkerTask task
  | .client a => if self.isEvent a then self.clientStep a else none
  | .relaunch early => some <| .ok <| self.launch early

def machine : Machine (Except String Device) Action where
  step
    | .ok self, action => self.step action
    | .error _, _ => none

/-- The first launch of the app. The keychain may hold a user from an earlier installation. -/
def install (keychain : Option User) (firestore : Firestore) (early : Option (Nat × Option NSError)) :
    Except String Device :=
  (Firestore.System.install .unauthenticated firestore).map fun system =>
    { auth :=
        { currentUser := none, keychain, rawAccessToken := none, lastNotifiedUserToken := none }
      loaded := false
      mainQueue := []
      contents := { currentUser := .unauthenticated, tokenCounter := 0 }
      changeListener := false
      dispatched := []
      fetching := []
      workerQueue := []
      initialized := false
      system
      createUsers := []
      attempts := 0
      setDatas := []
      completed := []
      : Device }.launch early

end Device

end Harusali
