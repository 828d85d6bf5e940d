import Harusali.Device.Basic
import Harusali.Client.Calls

set_option autoImplicit false

/-! # The session and the provider

What the credentials provider knows of the session. Auth posts a notification whenever the user
changes, so the user the provider will have when the main queue has run empty is the user Auth
has now. A token is only passed on while no notification has come in since it was asked for, so it
belongs to the user the provider has (`MainTask.Fits`). -/

namespace Harusali

open SerialQueue (drained AllFit)

/-! ## What Auth posts -/

/-- A forced sign-out takes place whatever the keychain says. -/
theorem FIRAuth.forced (auth : FIRAuth) (keychainError : Option NSError) :
    (auth.updateCurrentUser none true true keychainError).1.currentUser = none ∧
      ∀ user, (auth.updateCurrentUser none true true keychainError).1.Knows user →
        auth.Knows user := by
  unfold updateCurrentUser
  split
  · next hnone => exact ⟨hnone.2, fun user hknows => hknows⟩
  · cases keychainError with
    | none => exact ⟨rfl, fun user hknows => absurd hknows (by simp [Knows, saveUser])⟩
    | some error => exact ⟨rfl, fun user hknows => Or.inr (by simpa [Knows, saveUser] using hknows)⟩

namespace NotifyingAuth

/-- `getUserID`. -/
def getUserID (self : NotifyingAuth) : Option Uid := self.currentUser.map (·.uid)

/-- The token Auth has and the one it last notified of are of the current user. -/
structure Ok (auth : NotifyingAuth) : Prop where
  named : ∀ user, auth.Knows user → user.uid ≠ ""
  token : auth.rawAccessToken.map (·.uid) = auth.getUserID
  notified : auth.lastNotifiedUserToken.map (·.uid) = auth.getUserID

/-- A block of Auth has posted the uid, or the uid has not changed. -/
structure Changed (auth auth' : NotifyingAuth) (posted : List (Option Uid)) : Prop where
  ok : auth'.Ok
  posted : posted = [] ∧ auth'.getUserID = auth.getUserID ∨ posted = [auth'.getUserID]

variable {auth : NotifyingAuth}

theorem Changed.refl (h : auth.Ok) : Changed auth auth [] := ⟨h, Or.inl ⟨rfl, rfl⟩⟩

theorem Ok.uid_ne (h : auth.Ok) {uid : Uid} (huid : auth.getUserID = some uid) : uid ≠ "" := by
  obtain ⟨user, huser, rfl⟩ := Option.map_eq_some_iff.1 huid
  exact h.named user (Or.inl huser)

/-- The one place a notification is posted from. -/
theorem changed_possiblyPost {auth' : NotifyingAuth} (h : auth.Ok)
    (hnamed : ∀ user, auth'.Knows user → user.uid ≠ "")
    (htoken : auth'.rawAccessToken.map (·.uid) = auth'.getUserID)
    (hlast : auth'.lastNotifiedUserToken = auth.lastNotifiedUserToken) :
    Changed auth auth'.possiblyPost.1 auth'.possiblyPost.2 := by
  unfold possiblyPost
  split
  · next hsame =>
      have huid : auth'.getUserID = auth.getUserID := by
        rw [← htoken, ← hsame, hlast, h.notified]
      exact ⟨⟨hnamed, htoken, by rw [hsame, htoken]⟩, Or.inl ⟨rfl, huid⟩⟩
  · exact ⟨⟨hnamed, htoken, htoken⟩, Or.inr rfl⟩

theorem changed_loadUser (h : auth.Ok) (serial : Nat) (keychainError : Option NSError) :
    Changed auth (auth.loadUser serial keychainError).1 (auth.loadUser serial keychainError).2 := by
  refine changed_possiblyPost h (fun user hknows => ?_) ?_ rfl
  · exact h.named user (Or.inr (FIRAuth.knows_of_initWithAPIKey hknows))
  · simp only [getUserID, Option.map_map]
    rfl

theorem changed_signOutByForce (h : auth.Ok) (keychainError : Option NSError) :
    Changed auth (auth.signOutByForce keychainError).1 (auth.signOutByForce keychainError).2 := by
  obtain ⟨hnone, hknows⟩ := auth.toFIRAuth.forced keychainError
  refine changed_possiblyPost h (fun user hknown => h.named user (hknows user hknown)) ?_ rfl
  show none = Option.map _ (auth.toFIRAuth.updateCurrentUser none true true keychainError).1.currentUser
  rw [hnone]
  rfl

theorem changed_signOut (h : auth.Ok) (keychainError : Option NSError) :
    Changed auth (auth.signOut keychainError).1 (auth.signOut keychainError).2 := by
  unfold signOut
  split
  · exact .refl h
  · next user huser =>
      rcases auth.toFIRAuth.signOut_cases keychainError with
        ⟨hnone, -⟩ | ⟨-, -, heq⟩ | ⟨-, -, heq⟩
      · exact absurd (hnone.symm.trans huser) (by simp)
      · simp only [heq]
        refine changed_possiblyPost h ?_ rfl rfl
        rintro user (hknows | hknows) <;> exact absurd hknows (by simp)
      · simp only [heq]
        exact .refl h

/-- Auth with this account signed in. -/
def signedIn (auth : NotifyingAuth) (uid : Uid) (serial : Nat) : NotifyingAuth where
  currentUser := some ⟨uid⟩
  keychain := some ⟨uid⟩
  rawAccessToken := some ⟨uid, serial⟩
  lastNotifiedUserToken := auth.lastNotifiedUserToken

/-- A sign-in that the app hears of as a success has made its account the current user. -/
theorem changed_signInFlowCallback (h : auth.Ok) {response : AuthResponse}
    (huid : response.uid? ≠ some "") (serial : Nat) (keychainError : Option NSError) :
    ∃ auth' posted result error,
      auth.signInFlowCallback response serial keychainError = (auth', posted, result, error) ∧
      Changed auth auth' posted ∧
      (error = none → ∀ user, result.map (·.user) = some user →
        auth'.getUserID = some user.uid) := by
  cases response with
  | error error =>
      exact ⟨auth, [], none, some error, rfl, .refl h, by simp⟩
  | success uid =>
      cases keychainError with
      | some keychainError =>
          have heq := auth.toFIRAuth.signInFlowCallback_keychainError ⟨⟨uid⟩⟩ keychainError
          refine ⟨auth, [], none, some keychainError, ?_, .refl h, by simp⟩
          simp only [signInFlowCallback, AuthResponse.authResult, AuthResponse.nsError, heq]
      | none =>
          have heq := auth.toFIRAuth.signInFlowCallback_success ⟨⟨uid⟩⟩
          have hcall : auth.signInFlowCallback (.success uid) serial none
              = ((auth.signedIn uid serial).possiblyPost.1, (auth.signedIn uid serial).possiblyPost.2,
                some ⟨⟨uid⟩⟩, none) := by
            simp only [signInFlowCallback, AuthResponse.authResult, AuthResponse.nsError, heq]
            rfl
          refine ⟨_, _, _, _, hcall, ?_, ?_⟩
          · refine changed_possiblyPost h ?_ rfl rfl
            rintro user (hknows | hknows) <;> obtain rfl := Option.some.inj hknows <;>
              exact fun hempty => huid (congrArg some hempty)
          · rintro - user huser
            obtain rfl := Option.some.inj huser
            unfold possiblyPost
            split <;> rfl

/-- A token that the callback of a fetch is called with is of the user that was asked for one. -/
theorem changed_internalGetToken (h : auth.Ok) {uid : Uid} {isCurrent : Bool}
    (hcurrent : isCurrent = true → auth.currentUser = some ⟨uid⟩) (reply : TokenReply) :
    ∃ auth' posted token error,
      auth.internalGetToken uid isCurrent reply = (auth', posted, token, error) ∧
      Changed auth auth' posted ∧ (error = none → token.map (·.uid) = some uid) := by
  cases reply with
  | valid serial => exact ⟨auth, [], some ⟨uid, serial⟩, none, rfl, .refl h, fun _ => rfl⟩
  | updated serial keychainError =>
      cases isCurrent with
      | false => exact ⟨auth, [], some ⟨uid, serial⟩, none, rfl, .refl h, fun _ => rfl⟩
      | true =>
          have huser := hcurrent rfl
          have huid : some uid = auth.getUserID := by simp [getUserID, huser]
          cases keychainError with
          | some keychainError =>
              exact ⟨_, [], none, some keychainError, rfl,
                ⟨⟨h.named, huid, h.notified⟩, Or.inl ⟨rfl, rfl⟩⟩, by simp⟩
          | none =>
              refine ⟨_, _, some ⟨uid, serial⟩, none, rfl, ?_, fun _ => rfl⟩
              refine changed_possiblyPost h (fun user hknows => h.named user ?_) huid rfl
              rcases hknows with hknows | hknows
              · exact Or.inl hknows
              · exact Or.inl hknows
  | error error keychainError =>
      by_cases hinvalid : (isTokenInvalid error && isCurrent) = true
      · exact ⟨_, _, none, some error, by simp only [internalGetToken, hinvalid, if_true],
          changed_signOutByForce h keychainError, by simp⟩
      · exact ⟨auth, [], none, some error, by
          simp only [internalGetToken, hinvalid, if_false, Bool.false_eq_true], .refl h, by simp⟩

end NotifyingAuth

/-! ## What a block of the main queue relies on -/

theorem Firestore.User.fromUid_of_ne {uid : Uid} (h : uid ≠ "") :
    Firestore.User.fromUid (some uid) = .authenticated uid h :=
  dif_neg h

namespace MainTask

/-- What a block makes of the provider's contents. -/
def after (contents : Contents) : MainTask → Contents
  | .authStateDidChange uid => contents.authStateDidChange uid
  | _ => contents

/-- A token that is passed on is of the user the provider has, and so is an account that a success
    of `createUser` tells of. -/
def Fits (contents : Contents) : MainTask → Prop
  | .getTokenCallback getToken token error =>
      error = none → getToken.initialTokenCounter = contents.tokenCounter →
        token.map (·.uid) = contents.currentUser.token
  | .createUserCompletion _ result error =>
      error = none → ∀ user, result.map (·.user) = some user →
        ∃ h, contents.currentUser = .authenticated user.uid h
  | _ => True

def getToken? : MainTask → Option GetToken
  | .getTokenCallback getToken _ _ => some getToken
  | _ => none

end MainTask

namespace Device

/-- The provider's contents when the main queue has run empty. -/
def settledContents (d : Device) : Contents := drained MainTask.after d.contents d.mainQueue

/-- The `GetToken` calls whose blocks have not run. -/
def asked (d : Device) : List GetToken :=
  d.dispatched ++ d.fetching.map Prod.fst ++ d.mainQueue.filterMap MainTask.getToken?

/-- What holds between Auth and the provider. -/
structure Session (d : Device) : Prop where
  auth : d.auth.Ok
  posted : d.settledContents.currentUser = .fromUid d.auth.getUserID
  main : AllFit MainTask.after MainTask.Fits d.contents d.mainQueue
  earlier : ∀ getToken ∈ d.asked, getToken.initialTokenCounter ≤ d.contents.tokenCounter
  /-- A token that is being fetched is of the user the provider will have, unless the provider will
      have heard of another by then. -/
  fetching : ∀ p ∈ d.fetching, p.2 ≠ "" ∧
    (p.1.initialTokenCounter = d.settledContents.tokenCounter →
      d.settledContents.currentUser = .fromUid (some p.2))

variable {d : Device}

/-- What else changes does not matter to Auth and the provider. -/
theorem Session.frame (h : d.Session) {d' : Device} (hrest : d' = { d with
      loaded := d'.loaded
      changeListener := d'.changeListener
      workerQueue := d'.workerQueue
      initialized := d'.initialized
      system := d'.system
      createUsers := d'.createUsers
      attempts := d'.attempts
      setDatas := d'.setDatas
      completed := d'.completed }) : d'.Session := by
  rw [hrest]
  exact ⟨h.auth, h.posted, h.main, h.earlier, h.fetching⟩

theorem tokenCounter_le_settled (d : Device) :
    d.contents.tokenCounter ≤ d.settledContents.tokenCounter := by
  refine SerialQueue.drained_preserves
    (P := fun (contents : Contents) => d.contents.tokenCounter ≤ contents.tokenCounter) ?_ (Nat.le_refl _)
  intro contents task _ hle
  cases task with
  | authStateDidChange uid => exact Nat.le_succ_of_le hle
  | getTokenCallback | createUserCompletion | setDataCompletion => exact hle

theorem mem_asked {getToken : GetToken} :
    getToken ∈ d.asked ↔ getToken ∈ d.dispatched ∨ (∃ p ∈ d.fetching, p.1 = getToken) ∨
      ∃ task ∈ d.mainQueue, task.getToken? = some getToken := by
  simp [asked]

/-! ## Auth acts -/

theorem settledContents_notify (d : Device) (auth : NotifyingAuth) (posted : List (Option Uid)) :
    (d.notify auth posted).settledContents
      = posted.foldl Contents.authStateDidChange d.settledContents := by
  show drained _ _ (d.mainQueue ++ _) = _
  rw [SerialQueue.drained_append]
  exact List.foldl_map ..

/-- A notification puts every call made before it out of date. -/
theorem posted_eq_nil {getToken : GetToken} {auth auth' : NotifyingAuth}
    {posted : List (Option Uid)} (hchanged : NotifyingAuth.Changed auth auth' posted)
    (hearlier : getToken.initialTokenCounter ≤ d.contents.tokenCounter)
    (hcounter : getToken.initialTokenCounter
      = (posted.foldl Contents.authStateDidChange d.settledContents).tokenCounter) :
    posted = [] := by
  rcases hchanged.posted with ⟨hnil, -⟩ | hone
  · exact hnil
  · rw [hone] at hcounter
    have hle := d.tokenCounter_le_settled
    have hsucc : getToken.initialTokenCounter = d.settledContents.tokenCounter + 1 := hcounter
    omega

theorem Session.notify (h : d.Session) {auth : NotifyingAuth} {posted : List (Option Uid)}
    (hchanged : NotifyingAuth.Changed d.auth auth posted) : (d.notify auth posted).Session := by
  have hasked : (d.notify auth posted).asked = d.asked := by
    have hnone : (posted.map MainTask.authStateDidChange).filterMap MainTask.getToken? = [] := by
      simp [List.filterMap_map, MainTask.getToken?]
    simp only [asked, Device.notify, List.filterMap_append, hnone, List.append_nil]
  refine ⟨hchanged.ok, ?_, ?_, ?_, ?_⟩
  · rw [settledContents_notify]
    rcases hchanged.posted with ⟨rfl, huid⟩ | rfl
    · show d.settledContents.currentUser = .fromUid auth.getUserID
      rw [huid, h.posted]
    · rfl
  · refine SerialQueue.allFit_append.2 ⟨h.main, ?_⟩
    rcases hchanged.posted with ⟨rfl, -⟩ | rfl
    · exact trivial
    · exact ⟨trivial, trivial⟩
  · rw [hasked]
    exact h.earlier
  · intro p hp
    obtain ⟨hne, huser⟩ := h.fetching p hp
    refine ⟨hne, fun hcounter => ?_⟩
    rw [settledContents_notify] at hcounter ⊢
    have hnil : posted = [] := posted_eq_nil hchanged
      (h.earlier p.1 (mem_asked.2 (Or.inr (Or.inl ⟨p, hp, rfl⟩)))) hcounter
    rw [hnil] at hcounter ⊢
    exact huser hcounter

/-- A block that is no notification is put on the main queue. -/
theorem Session.push (h : d.Session) {task : MainTask}
    (hsilent : ∀ contents, task.after contents = contents) (hfits : task.Fits d.settledContents)
    (hearlier : ∀ getToken, task.getToken? = some getToken →
      getToken.initialTokenCounter ≤ d.contents.tokenCounter) :
    Session { d with mainQueue := d.mainQueue ++ [task] } := by
  have hsame : settledContents { d with mainQueue := d.mainQueue ++ [task] }
      = d.settledContents := by
    show drained _ _ (d.mainQueue ++ [task]) = _
    rw [SerialQueue.drained_append]
    exact hsilent _
  refine ⟨h.auth, ?_, h.main.push hfits, ?_, ?_⟩
  · rw [hsame]
    exact h.posted
  · intro getToken hmem
    rcases mem_asked.1 hmem with hmem | hmem | ⟨other, hmem, hother⟩
    · exact h.earlier getToken (mem_asked.2 (Or.inl hmem))
    · exact h.earlier getToken (mem_asked.2 (Or.inr (Or.inl hmem)))
    · rcases List.mem_append.1 hmem with hmem | hmem
      · exact h.earlier getToken (mem_asked.2 (Or.inr (Or.inr ⟨other, hmem, hother⟩)))
      · obtain rfl := List.mem_singleton.1 hmem
        exact hearlier getToken hother
  · rw [hsame]
    exact h.fetching

/-- Some of the `GetToken` calls are taken on. -/
theorem Session.take (h : d.Session) {dispatched : List GetToken} {fetching : List (GetToken × Uid)}
    (hdispatched : dispatched ⊆ d.dispatched) (hfetching : fetching ⊆ d.fetching) :
    Session { d with dispatched, fetching } := by
  refine ⟨h.auth, h.posted, h.main, ?_, fun p hp => h.fetching p (hfetching hp)⟩
  intro getToken hmem
  rcases mem_asked.1 hmem with hmem | ⟨p, hp, hfst⟩ | hmem
  · exact h.earlier getToken (mem_asked.2 (Or.inl (hdispatched hmem)))
  · exact h.earlier getToken (mem_asked.2 (Or.inr (Or.inl ⟨p, hfetching hp, hfst⟩)))
  · exact h.earlier getToken (mem_asked.2 (Or.inr (Or.inr hmem)))

theorem Session.createUserResponse (h : d.Session) (r : CreateUserRequest)
    {response : AuthResponse} (huid : response.uid? ≠ some "") (serial : Nat)
    (keychainError : Option NSError) :
    ∃ auth posted result error,
      d.auth.signInFlowCallback response serial keychainError = (auth, posted, result, error) ∧
      (d.notify auth posted).Session ∧
      Session { d.notify auth posted with
        mainQueue := (d.notify auth posted).mainQueue ++ [.createUserCompletion r result error] } := by
  obtain ⟨auth, posted, result, error, heq, hchanged, hsigned⟩ :=
    NotifyingAuth.changed_signInFlowCallback h.auth huid serial keychainError
  have hnotified := h.notify hchanged
  refine ⟨auth, posted, result, error, heq, hnotified, ?_⟩
  refine hnotified.push (fun _ => rfl) ?_ (fun _ hnone => absurd hnone (by simp [MainTask.getToken?]))
  intro herror user huser
  have hcurrent := hsigned herror user huser
  have hne := hchanged.ok.uid_ne hcurrent
  refine ⟨hne, ?_⟩
  rw [hnotified.posted]
  show Firestore.User.fromUid auth.getUserID = _
  rw [hcurrent, Firestore.User.fromUid_of_ne hne]

theorem Session.signInResponse (h : d.Session) {response : AuthResponse}
    (huid : response.uid? ≠ some "") (serial : Nat) (keychainError : Option NSError) :
    (d.notify (d.auth.signInFlowCallback response serial keychainError).1
      (d.auth.signInFlowCallback response serial keychainError).2.1).Session := by
  obtain ⟨auth, posted, result, error, heq, hchanged, -⟩ :=
    NotifyingAuth.changed_signInFlowCallback h.auth huid serial keychainError
  rw [heq]
  exact h.notify hchanged

/-- Auth looks at a `GetToken` call while nobody is signed in. -/
theorem Session.callBackNil (h : d.Session) {getToken : GetToken} {dispatched : List GetToken}
    (hdispatched : d.dispatched = getToken :: dispatched) (hnone : d.auth.currentUser = none) :
    Session { d with
      dispatched, mainQueue := d.mainQueue ++ [.getTokenCallback getToken none none] } := by
  have htaken : Session { d with dispatched } :=
    h.take (fun g hg => by rw [hdispatched]; exact List.mem_cons_of_mem _ hg) (List.Subset.refl _)
  refine htaken.push (fun _ => rfl) ?_ ?_
  · intro _ _
    show none = d.settledContents.currentUser.token
    rw [h.posted, NotifyingAuth.getUserID, hnone]
    rfl
  · intro other hother
    obtain rfl := Option.some.inj hother
    exact h.earlier getToken (mem_asked.2 (Or.inl (by rw [hdispatched]; exact List.mem_cons_self ..)))

/-- Auth looks at a `GetToken` call while this user is signed in. -/
theorem Session.fetch (h : d.Session) {getToken : GetToken} {dispatched : List GetToken}
    (hdispatched : d.dispatched = getToken :: dispatched) {user : User}
    (huser : d.auth.currentUser = some user) :
    Session { d with dispatched, fetching := d.fetching ++ [(getToken, user.uid)] } := by
  have huid : d.auth.getUserID = some user.uid := by rw [NotifyingAuth.getUserID, huser]; rfl
  refine ⟨h.auth, h.posted, h.main, ?_, ?_⟩
  · intro other hmem
    rcases mem_asked.1 hmem with hmem | ⟨p, hp, hfst⟩ | hmem
    · refine h.earlier other (mem_asked.2 (Or.inl ?_))
      rw [hdispatched]
      exact List.mem_cons_of_mem _ hmem
    · rcases List.mem_append.1 hp with hp | hp
      · exact h.earlier other (mem_asked.2 (Or.inr (Or.inl ⟨p, hp, hfst⟩)))
      · rw [List.mem_singleton.1 hp] at hfst
        obtain rfl : getToken = other := hfst
        refine h.earlier getToken (mem_asked.2 (Or.inl ?_))
        rw [hdispatched]
        exact List.mem_cons_self ..
    · exact h.earlier other (mem_asked.2 (Or.inr (Or.inr hmem)))
  · intro p hp
    rcases List.mem_append.1 hp with hp | hp
    · exact h.fetching p hp
    · rw [List.mem_singleton.1 hp]
      refine ⟨h.auth.uid_ne huid, fun _ => ?_⟩
      show d.settledContents.currentUser = _
      rw [h.posted, huid]

theorem Session.getTokenReply (h : d.Session) {i : Nat} {getToken : GetToken} {uid : Uid}
    (hfetch : d.fetching[i]? = some (getToken, uid)) {isCurrent : Bool}
    (hcurrent : d.MayReply uid isCurrent) (reply : TokenReply) :
    ∃ auth posted token error,
      d.auth.internalGetToken uid isCurrent reply = (auth, posted, token, error) ∧
      Session { d.notify auth posted with
        fetching := d.fetching.eraseIdx i
        mainQueue := (d.notify auth posted).mainQueue
          ++ [.getTokenCallback getToken token error] } := by
  obtain ⟨auth, posted, token, error, heq, hchanged, htoken⟩ :=
    NotifyingAuth.changed_internalGetToken h.auth hcurrent reply
  have hmem := List.mem_of_getElem? hfetch
  have hearlier := h.earlier getToken (mem_asked.2 (Or.inr (Or.inl ⟨_, hmem, rfl⟩)))
  refine ⟨auth, posted, token, error, heq, ?_⟩
  have hnotified : Session { d.notify auth posted with fetching := d.fetching.eraseIdx i } :=
    (h.notify hchanged).take (List.Subset.refl _) fun _ hp => List.mem_of_mem_eraseIdx hp
  refine hnotified.push (fun _ => rfl) ?_ ?_
  · intro herror hcounter
    -- the counter has not moved, so nothing has been posted and the user is the one asked for
    have hfold := d.settledContents_notify auth posted
    change getToken.initialTokenCounter = (d.notify auth posted).settledContents.tokenCounter
      at hcounter
    show _ = (d.notify auth posted).settledContents.currentUser.token
    rw [hfold] at hcounter ⊢
    have hnil : posted = [] := posted_eq_nil hchanged hearlier hcounter
    rw [hnil] at hcounter ⊢
    obtain ⟨hne, huser⟩ := h.fetching _ hmem
    rw [htoken herror]
    show some uid = d.settledContents.currentUser.token
    rw [huser hcounter, Firestore.User.fromUid_of_ne hne]
    rfl
  · intro other hother
    obtain rfl := Option.some.inj hother
    exact hearlier

/-! ## The main queue runs -/

theorem Session.perform (h : d.Session) (effect : Effect) : (d.perform effect).Session := by
  cases effect with
  | doNothing => exact h
  | setData r =>
      unfold Device.perform ensureClientConfigured
      dsimp only
      split <;> exact h.frame rfl
  | completion c result => exact h.frame rfl

/-- A block leaves the main queue and takes effect on the provider. -/
theorem Session.pop (h : d.Session) {task : MainTask} {mainQueue : List MainTask}
    (hqueue : d.mainQueue = task :: mainQueue) :
    Session { d with mainQueue, contents := task.after d.contents } := by
  have hmain := h.main
  rw [hqueue] at hmain
  have hsettled : settledContents { d with mainQueue, contents := task.after d.contents }
      = d.settledContents := by
    rw [settledContents, settledContents, hqueue]
    rfl
  refine ⟨h.auth, ?_, hmain.2, ?_, ?_⟩
  · rw [hsettled]
    exact h.posted
  · intro getToken hmem
    have hmem' : getToken ∈ d.asked := by
      rw [mem_asked] at hmem ⊢
      refine hmem.imp_right (Or.imp_right ?_)
      rintro ⟨other, hmem, hother⟩
      exact ⟨other, by rw [hqueue]; exact List.mem_cons_of_mem _ hmem, hother⟩
    refine (h.earlier getToken hmem').trans ?_
    cases task with
    | authStateDidChange uid => exact Nat.le_succ _
    | getTokenCallback | createUserCompletion | setDataCompletion => exact Nat.le_refl _
  · rw [hsettled]
    exact h.fetching

theorem Session.runMain (h : d.Session) {task : MainTask} {mainQueue : List MainTask}
    (hqueue : d.mainQueue = task :: mainQueue) :
    Session ({ d with mainQueue }.runMainTask task) := by
  have hpop := h.pop hqueue
  cases task with
  | authStateDidChange uid =>
      unfold Device.runMainTask
      dsimp only
      split
      · exact hpop.frame rfl
      · exact hpop
  | getTokenCallback getToken token error =>
      unfold Device.runMainTask Device.getTokenCallback
      dsimp only
      split
      · refine ⟨hpop.auth, hpop.posted, hpop.main, ?_, hpop.fetching⟩
        intro other hmem
        rcases mem_asked.1 hmem with hmem | hmem
        · rcases List.mem_append.1 hmem with hmem | hmem
          · exact hpop.earlier other (mem_asked.2 (Or.inl hmem))
          · obtain rfl := List.mem_singleton.1 hmem
            exact Nat.le_refl _
        · exact hpop.earlier other (mem_asked.2 (Or.inr hmem))
      · exact hpop.frame rfl
  | createUserCompletion r result error => exact hpop.perform _
  | setDataCompletion write status =>
      unfold Device.runMainTask
      dsimp only
      split
      · exact hpop
      · exact hpop.perform _

/-! ## The client acts -/

/-- The client makes `GetToken` calls and calls callbacks. -/
theorem Session.withSystem (h : d.Session) (a : Firestore.System.Action)
    (system : Firestore.System) : (d.withSystem a system).Session := by
  have hsilent : ∀ (contents : Contents) (notified : List (Firestore.StatusCallback × Firestore.Status)),
      drained MainTask.after contents
        (notified.map fun p => .setDataCompletion p.1.write p.2) = contents := by
    intro contents notified
    refine SerialQueue.drained_of_silent fun contents task hmem => ?_
    obtain ⟨p, -, rfl⟩ := List.mem_map.1 hmem
    rfl
  have hsettled : (d.withSystem a system).settledContents = d.settledContents := by
    show drained _ _ (d.mainQueue ++ _) = _
    rw [SerialQueue.drained_append, hsilent]
    rfl
  refine ⟨h.auth, ?_, ?_, ?_, ?_⟩
  · rw [hsettled]
    exact h.posted
  · refine SerialQueue.allFit_append.2 ⟨h.main, ?_⟩
    generalize drained MainTask.after d.contents d.mainQueue = contents
    induction system.client.notified.drop d.system.client.notified.length generalizing contents with
    | nil => exact trivial
    | cons p rest ih => exact ⟨trivial, ih contents⟩
  · intro getToken hmem
    rcases mem_asked.1 hmem with hmem | hmem | ⟨task, hmem, htask⟩
    · rcases List.mem_append.1 hmem with hmem | hmem
      · exact h.earlier getToken (mem_asked.2 (Or.inl hmem))
      · obtain ⟨n, -, rfl⟩ := List.mem_map.1 hmem
        exact Nat.le_refl _
    · exact h.earlier getToken (mem_asked.2 (Or.inr (Or.inl hmem)))
    · rcases List.mem_append.1 hmem with hmem | hmem
      · exact h.earlier getToken (mem_asked.2 (Or.inr (Or.inr ⟨task, hmem, htask⟩)))
      · obtain ⟨p, -, rfl⟩ := List.mem_map.1 hmem
        exact absurd htask (by simp [MainTask.getToken?])
  · rw [hsettled]
    exact h.fetching

/-! ## A process starts -/

theorem Session.loadUser (h : d.Session) (serial : Nat) (keychainError : Option NSError) :
    (d.loadUser serial keychainError).Session := by
  have hnotified := h.notify (NotifyingAuth.changed_loadUser h.auth serial keychainError)
  exact hnotified.frame rfl

/-- The provider reads the uid from Auth, before or after the stored user is loaded. -/
theorem session_launch (hauth : d.auth.Ok) (early : Option (Nat × Option NSError)) :
    (d.launch early).Session := by
  have hstart : NotifyingAuth.Ok
      { currentUser := none
        keychain := d.auth.keychain
        rawAccessToken := none
        lastNotifiedUserToken := none } := by
    refine ⟨fun user hknows => hauth.named user (Or.inr ?_), rfl, rfl⟩
    exact hknows.resolve_left (by simp)
  have hread : ∀ d' : Device, d'.auth.Ok → d'.asked = [] →
      (∃ posted, d'.mainQueue = posted.map MainTask.authStateDidChange ∧
        (posted = [] ∨ posted = [d'.auth.getUserID])) →
      Session { d' with
        contents := { currentUser := .fromUid d'.auth.getUserID, tokenCounter := 0 } } := by
    rintro d' hok hasked ⟨posted, hqueue, hposted⟩
    refine ⟨hok, ?_, ?_, ?_, ?_⟩
    · show (drained MainTask.after _ d'.mainQueue).currentUser = _
      rw [hqueue]
      rcases hposted with rfl | rfl <;> rfl
    · show AllFit _ _ _ d'.mainQueue
      rw [hqueue]
      rcases hposted with rfl | rfl
      · exact trivial
      · exact ⟨trivial, trivial⟩
    · intro getToken hmem
      exact absurd (hasked ▸ hmem : getToken ∈ []) List.not_mem_nil
    · intro p hp
      exact absurd (hasked ▸ mem_asked.2 (Or.inr (Or.inl ⟨p, hp, rfl⟩)) : p.1 ∈ [])
        List.not_mem_nil
  cases early with
  | none => exact hread _ hstart rfl ⟨[], rfl, Or.inl rfl⟩
  | some early =>
      obtain ⟨serial, keychainError⟩ := early
      have hchanged := NotifyingAuth.changed_loadUser hstart serial keychainError
      refine hread _ hchanged.ok ?_ ⟨_, rfl, ?_⟩
      · show List.filterMap MainTask.getToken? (List.map _ _) = []
        simp [List.filterMap_map, MainTask.getToken?]
      · exact hchanged.posted.imp_left And.left

end Device

end Harusali
