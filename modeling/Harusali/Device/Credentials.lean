import Harusali.Client.System
import Harusali.Controller.SignUpVC

set_option autoImplicit false

/-! # Credentials

How the session gets from Auth to the Firestore client. `NotifyingAuth` is `FIRAuth` with the
tokens it compares to tell whether the app has to hear of a change; `Contents` is what the
`FirebaseCredentialsProvider` of the client makes of the notifications. They run on two queues,
Auth on its global work queue and the provider on the main queue, so the provider learns of a
change of user only after it has happened, and may ask for the token of a user who is gone. -/

namespace Harusali

/-! ## Auth -/

/-- An access token: whose it is, and a number that tells the tokens of one user apart. -/
structure AccessToken where
  uid : Uid
  serial : Nat
  deriving DecidableEq, Repr

/-- `FIRAuth` with the token of its user and the token it last notified of. -/
structure NotifyingAuth extends FIRAuth where
  rawAccessToken : Option AccessToken
  lastNotifiedUserToken : Option AccessToken
  deriving DecidableEq, Repr

/-- What a fetch of a user's token ends with. -/
inductive TokenReply where
  /-- The token the user has is still good. -/
  | valid (serial : Nat)
  /-- The service has issued another token. -/
  | updated (serial : Nat) (keychainError : Option NSError)
  | error (error : NSError) (keychainError : Option NSError)
  deriving DecidableEq, Repr

namespace NotifyingAuth

/-- `possiblyPostAuthStateChangeNotification`, with the uid of the notification if one is posted. -/
def possiblyPost (self : NotifyingAuth) : NotifyingAuth × List (Option Uid) :=
  if self.lastNotifiedUserToken = self.rawAccessToken then (self, [])
  else ({ self with lastNotifiedUserToken := self.rawAccessToken },
    [self.currentUser.map (·.uid)])

/-- The block that `initWithAPIKey:appName:` leaves to the work queue. A stored user is stored with
    its token. -/
def loadUser (self : NotifyingAuth) (serial : Nat) (keychainError : Option NSError) :
    NotifyingAuth × List (Option Uid) :=
  let auth := FIRAuth.initWithAPIKey self.keychain keychainError
  let loaded : NotifyingAuth :=
    { auth with
      rawAccessToken := auth.currentUser.map fun user => ⟨user.uid, serial⟩
      lastNotifiedUserToken := self.lastNotifiedUserToken }
  loaded.possiblyPost

/-- The block of `signInFlowAuthDataResultCallbackByDecoratingCallback:`, with what the app's block
    will be called with. -/
def signInFlowCallback (self : NotifyingAuth) (response : AuthResponse) (serial : Nat)
    (keychainError : Option NSError) :
    NotifyingAuth × List (Option Uid) × Option AuthDataResult × Option NSError :=
  match self.toFIRAuth.signInFlowCallback response.authResult response.nsError keychainError with
  | (auth, result, some error) => ({ self with toFIRAuth := auth }, [], result, some error)
  | (auth, result, none) =>
      let (self, posted) := { self with
        toFIRAuth := auth
        rawAccessToken := response.uid?.map fun uid => ⟨uid, serial⟩ }.possiblyPost
      (self, posted, result, none)

/-- `signOut:`. -/
def signOut (self : NotifyingAuth) (keychainError : Option NSError) :
    NotifyingAuth × List (Option Uid) :=
  match self.currentUser with
  | none => (self, [])
  | some _ =>
      match self.toFIRAuth.signOut keychainError with
      | (auth, false) => ({ self with toFIRAuth := auth }, [])
      | (auth, true) => { self with toFIRAuth := auth, rawAccessToken := none }.possiblyPost

/-- `signOutByForceWithUserID:error:` called by the current user. -/
def signOutByForce (self : NotifyingAuth) (keychainError : Option NSError) :
    NotifyingAuth × List (Option Uid) :=
  let (auth, _) := self.toFIRAuth.updateCurrentUser none true true keychainError
  { self with toFIRAuth := auth, rawAccessToken := none }.possiblyPost

/-- `updateKeychainWithUser:error:` called by the current user. -/
def updateKeychain (self : NotifyingAuth) (keychainError : Option NSError) :
    NotifyingAuth × List (Option Uid) × Bool :=
  match self.toFIRAuth.saveUser self.currentUser keychainError with
  | (auth, false) => ({ self with toFIRAuth := auth }, [], false)
  | (auth, true) =>
      let (self, posted) := { self with toFIRAuth := auth }.possiblyPost
      (self, posted, true)

/-- The errors `signOutIfTokenIsInvalidWithError:` signs the user out for. -/
def isTokenInvalid (error : NSError) : Bool :=
  error.code = 17011 ∨ error.code = 17005 ∨ error.code = 17017 ∨ error.code = 17021

/-- The block of `internalGetTokenForcingRefresh:callback:`, with what its callback is called with.
    `isCurrent` tells whether the user object that asked is still the current user; another one for
    the same account may be. -/
def internalGetToken (self : NotifyingAuth) (uid : Uid) (isCurrent : Bool) :
    TokenReply → NotifyingAuth × List (Option Uid) × Option AccessToken × Option NSError
  | .valid serial => (self, [], some ⟨uid, serial⟩, none)
  | .updated serial keychainError =>
      if isCurrent then
        match { self with rawAccessToken := some ⟨uid, serial⟩ }.updateKeychain keychainError with
        | (self, posted, false) => (self, posted, none, keychainError)
        | (self, posted, true) => (self, posted, some ⟨uid, serial⟩, none)
      else (self, [], some ⟨uid, serial⟩, none)
  | .error error keychainError =>
      if isTokenInvalid error && isCurrent then
        let (self, posted) := self.signOutByForce keychainError
        (self, posted, none, some error)
      else (self, [], none, some error)

end NotifyingAuth

/-! ## The credentials provider -/

/-- `FirebaseCredentialsProvider::Contents`. -/
structure Contents where
  currentUser : Firestore.User
  tokenCounter : Nat

/-- The provider's block for `FIRAuthStateDidChangeInternalNotification`, up to the point where it
    calls the listener. -/
def Contents.authStateDidChange (self : Contents) (uid : Option Uid) : Contents where
  currentUser := .fromUid uid
  tokenCounter := self.tokenCounter + 1

/-- A `GetToken` call that has not called back: the close count of the stream that made it, and the
    token counter at the time. -/
structure GetToken where
  initialCloseCount : Nat
  initialTokenCounter : Nat
  deriving DecidableEq, Repr

/-- How the provider passes on an error of Auth, whose domain is never Firestore's; its description is
    left out. -/
def Contents.tokenError : Firestore.Status := { code := .unknown }

end Harusali
