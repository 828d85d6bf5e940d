import Harusali.Device.Invariant
import Mathlib.Data.List.Perm.Basic

set_option autoImplicit false

/-! # What a step of the device keeps

One lemma for each queue. Auth's blocks and the main queue leave the client alone; an operation of
the worker queue is a step of the client, and finds it as the task relies on
(`ok_runWorkerTask`). `ok_step` puts them together. -/

namespace Harusali

open SerialQueue (drained AllFit)
open Firestore (WriteLog Status)
open Firestore.System (toMutations)

namespace Device

variable {initial : Firestore} {d : Device}

/-! ## Auth -/

/-- Auth and the taps change nothing the client sees, and no `GetToken` call is lost. -/
theorem Ok.front (h : d.Ok initial) {d' : Device} (hsession : d'.Session)
    (hasked : ∀ n, (d'.asked.map (·.initialCloseCount)).count n
      = (d.asked.map (·.initialCloseCount)).count n)
    (hcalled : ∀ write status, MainTask.setDataCompletion write status ∈ d'.mainQueue →
      MainTask.setDataCompletion write status ∈ d.mainQueue)
    (hrest : d' = { d with
      auth := d'.auth
      loaded := d'.loaded
      mainQueue := d'.mainQueue
      dispatched := d'.dispatched
      fetching := d'.fetching
      createUsers := d'.createUsers
      attempts := d'.attempts }) : d'.Ok initial := by
  have haround := h.around
  have houtstanding : ∀ n, d'.outstanding.count n = d.outstanding.count n := by
    intro n
    have hworker : d'.workerQueue = d.workerQueue := by rw [hrest]
    rw [Device.outstanding, Device.outstanding, hworker, List.count_append, List.count_append, hasked]
  rw [hrest] at hsession houtstanding ⊢
  exact ⟨h.system, h.owned, hsession, haround.worker, haround.told,
    fun n => (houtstanding n).trans (haround.outstanding n), haround.setDatas, haround.profiles,
    fun write status hmem => haround.called write status (hcalled write status hmem),
    haround.completed⟩

theorem asked_notify (d : Device) (auth : NotifyingAuth) (posted : List (Option Uid)) :
    (d.notify auth posted).asked = d.asked := by
  have hnone : (posted.map MainTask.authStateDidChange).filterMap MainTask.getToken? = [] := by
    simp [List.filterMap_map, MainTask.getToken?]
  simp only [asked, Device.notify, List.filterMap_append, hnone, List.append_nil]

theorem called_notify {auth : NotifyingAuth} {posted : List (Option Uid)} {write : Nat}
    {status : Status}
    (hmem : MainTask.setDataCompletion write status ∈ (d.notify auth posted).mainQueue) :
    MainTask.setDataCompletion write status ∈ d.mainQueue := by
  rcases List.mem_append.1 hmem with hmem | hmem
  · exact hmem
  · obtain ⟨uid, -, heq⟩ := List.mem_map.1 hmem
    exact absurd heq (by simp)

theorem Ok.notify (h : d.Ok initial) {auth : NotifyingAuth} {posted : List (Option Uid)}
    (hsession : (d.notify auth posted).Session) : (d.notify auth posted).Ok initial :=
  h.front hsession (fun n => by rw [asked_notify]) (fun _ _ hmem => called_notify hmem) rfl

theorem ok_createUserResponse (h : d.Ok initial) {r : CreateUserRequest} {response : AuthResponse}
    {serial : Nat} {keychainError : Option NSError} {result : Except String Device}
    (hstep : d.step (.createUserResponse r response serial keychainError) = some result) :
    ∃ d', result = .ok d' ∧ d'.Ok initial := by
  simp only [step] at hstep
  split at hstep
  · next hguard =>
      obtain ⟨auth, posted, value, error, heq, -, hsession⟩ :=
        h.around.session.createUserResponse r hguard.2.2 serial keychainError
      simp only [heq, Option.some.injEq] at hstep
      refine ⟨_, hstep.symm, h.front (hsession.frame rfl) (fun n => ?_) (fun write status hmem => ?_) rfl⟩
      · have hsame := d.asked_notify auth posted
        have hnone : [MainTask.createUserCompletion r value error].filterMap MainTask.getToken? = [] :=
          rfl
        simp only [asked, List.filterMap_append, hnone, List.append_nil] at hsame ⊢
        rw [hsame]
      · rcases List.mem_append.1 hmem with hmem | hmem
        · exact called_notify hmem
        · exact absurd (List.mem_singleton.1 hmem) (by simp)
  · exact absurd hstep (by simp)

/-- Auth looks at the next `GetToken` call. -/
theorem ok_getTokenForcingRefresh (h : d.Ok initial) {result : Except String Device}
    (hstep : d.step .getTokenForcingRefresh = some result) :
    ∃ d', result = .ok d' ∧ d'.Ok initial := by
  simp only [step] at hstep
  split at hstep
  · next getToken dispatched _ hdispatched =>
      split at hstep
      · next hnone =>
          obtain rfl := Option.some.inj hstep
          refine ⟨_, rfl, h.front (h.around.session.callBackNil hdispatched hnone) (fun n => ?_)
            (fun write status hmem => ?_) rfl⟩
          · simp only [asked, hdispatched, List.filterMap_append, MainTask.getToken?,
              List.filterMap_cons, List.filterMap_nil, List.map_append, List.map_cons, List.map_nil,
              List.count_append, List.count_cons, List.count_nil]
            omega
          · rcases List.mem_append.1 hmem with hmem | hmem
            · exact hmem
            · exact absurd (List.mem_singleton.1 hmem) (by simp)
      · next user huser =>
          obtain rfl := Option.some.inj hstep
          refine ⟨_, rfl, h.front (h.around.session.fetch hdispatched huser) (fun n => ?_)
            (fun write status hmem => hmem) rfl⟩
          simp only [asked, hdispatched, List.map_append, List.map_cons, List.map_nil,
            List.count_append, List.count_cons, List.count_nil]
          omega
  · exact absurd hstep (by simp)

theorem ok_getTokenReply (h : d.Ok initial) {i : Nat} {isCurrent : Bool} {reply : TokenReply}
    {result : Except String Device} (hstep : d.step (.getTokenReply i isCurrent reply) = some result) :
    ∃ d', result = .ok d' ∧ d'.Ok initial := by
  simp only [step] at hstep
  split at hstep
  · exact absurd hstep (by simp)
  · next getToken uid hfetch =>
      split at hstep
      · next hcurrent =>
          obtain ⟨auth, posted, token, error, heq, hsession⟩ :=
            h.around.session.getTokenReply hfetch hcurrent reply
          simp only [heq, Option.some.injEq] at hstep
          refine ⟨_, hstep.symm, h.front hsession (fun n => ?_) (fun write status hmem => ?_) rfl⟩
          · have hsame := d.asked_notify auth posted
            obtain ⟨hlt, hget⟩ := List.getElem?_eq_some_iff.1 hfetch
            have hperm := (List.getElem_cons_eraseIdx_perm hlt).map
              fun p : GetToken × Uid => p.1.initialCloseCount
            have hcount := hperm.count_eq n
            rw [hget] at hcount
            rw [← hsame]
            simp only [asked, Device.notify, List.filterMap_append, MainTask.getToken?,
              List.filterMap_cons, List.filterMap_nil, List.map_append, List.map_cons, List.map_nil,
              List.map_map, List.count_append, List.count_cons, List.count_nil,
              Function.comp_def] at hcount ⊢
            omega
          · rcases List.mem_append.1 hmem with hmem | hmem
            · exact called_notify hmem
            · exact absurd (List.mem_singleton.1 hmem) (by simp)
      · exact absurd hstep (by simp)

/-! ## The main queue -/

section Main

variable {user : Option Firestore.User} {getTokens : List Nat} {writes : WriteLog}

/-- An operation is put on the worker queue. -/
theorem Around.enqueue (h : d.Around user getTokens writes) {task : WorkerTask}
    (hsilent : ∀ user, task.after user = user) (hnew : task.closeCount? = none)
    (hfits : task.Fits (drained WorkerTask.after user d.workerQueue)) :
    Around { d with workerQueue := d.workerQueue ++ [task] } user getTokens writes := by
  refine { h with
    session := h.session.frame rfl
    worker := h.worker.push hfits
    told := ?_
    outstanding := fun n => ?_ }
  · show drained _ _ (d.workerQueue ++ [task]) = _
    rw [SerialQueue.drained_append]
    exact (hsilent _).trans h.told
  · have hnone : [task].filterMap WorkerTask.closeCount? = [] := List.filterMap_cons_none hnew
    have hcount := h.outstanding n
    simp only [Device.outstanding, List.filterMap_append, hnone, List.append_nil] at hcount ⊢
    exact hcount

/-- The client is there, and what is put on the worker queue next finds the provider's user. -/
theorem Around.ensureClientConfigured (h : d.Around user getTokens writes) :
    d.ensureClientConfigured.Around user getTokens writes ∧
      drained WorkerTask.after user d.ensureClientConfigured.workerQueue
        = some d.contents.currentUser := by
  unfold Device.ensureClientConfigured
  split
  · next hlistener => exact ⟨h, by rw [h.told, if_pos hlistener]⟩
  · next hlistener =>
      have hnone := h.told
      rw [if_neg hlistener] at hnone
      have hdrained : drained WorkerTask.after user
          (d.workerQueue ++ [.initializeClient d.contents.currentUser])
            = some d.contents.currentUser := by
        rw [SerialQueue.drained_append]
        rfl
      refine ⟨{ h with
        session := h.session.frame rfl
        worker := h.worker.push hnone
        told := hdrained
        outstanding := fun n => ?_ }, hdrained⟩
      have hinit : [WorkerTask.initializeClient d.contents.currentUser].filterMap
          WorkerTask.closeCount? = [] := rfl
      have hcount := h.outstanding n
      simp only [Device.outstanding, List.filterMap_append, hinit, List.append_nil] at hcount ⊢
      exact hcount

/-- What a completion block does fits the provider: it writes the document of the user the provider
    has, and reports a success only of a write that has been. -/
def Licensed (d : Device) : Effect → Prop
  | .doNothing => True
  | .setData r => ∃ uid h, d.contents.currentUser = .authenticated uid h ∧ r.path = ⟨"User", uid⟩
  | .completion completion (.success _) => ∃ r, r.completion = completion ∧ d.Reported r
  | .completion _ (.failure _) => True

theorem Around.perform (h : d.Around user getTokens writes) {effect : Effect}
    (hlicensed : d.Licensed effect) : (d.perform effect).Around user getTokens writes := by
  cases effect with
  | doNothing => exact h
  | setData r =>
      obtain ⟨hclient, hdrained⟩ := h.ensureClientConfigured
      obtain ⟨uid, hne, huser, hpath⟩ := hlicensed
      refine hclient.enqueue (fun _ => rfl) rfl ⟨uid, hne, ?_, hpath⟩
      rw [hdrained, huser]
  | completion completion result =>
      refine { h with
        session := h.session.frame rfl
        completed := fun completion' value hmem => ?_ }
      rcases List.mem_append.1 hmem with hmem | hmem
      · exact h.completed completion' value hmem
      · obtain ⟨rfl, rfl⟩ := Prod.mk.inj (List.mem_singleton.1 hmem)
        exact hlicensed

/-- The provider hears of a change, and tells the client if there is one. -/
theorem Around.authStateDidChange {uid : Option Uid} {mainQueue : List MainTask}
    (h : d.Around user getTokens writes)
    (hqueue : d.mainQueue = .authStateDidChange uid :: mainQueue) :
    ({ d with mainQueue }.runMainTask (.authStateDidChange uid)).Around user getTokens writes := by
  have hcalled : ∀ write status, MainTask.setDataCompletion write status ∈ mainQueue →
      (⟨write⟩, status) ∈ d.system.client.notified := fun write status hmem =>
    h.called write status (by rw [hqueue]; exact List.mem_cons_of_mem _ hmem)
  have hcount : ∀ n, (Device.outstanding { d with mainQueue }).count n = getTokens.count n := by
    intro n
    have hnone : (MainTask.authStateDidChange uid).getToken? = none := rfl
    rw [← h.outstanding n]
    simp only [Device.outstanding, asked, hqueue, List.filterMap_cons_none hnone]
  have hsession := h.session.runMain hqueue
  have htold := h.told
  unfold Device.runMainTask at hsession ⊢
  dsimp only at hsession ⊢
  split at hsession
  · next hlistener =>
      rw [if_pos hlistener] at htold ⊢
      refine { h with
        session := hsession
        worker := h.worker.push (by rw [htold]; rfl)
        told := ?_
        outstanding := fun n => ?_
        called := hcalled }
      · show drained _ _ (d.workerQueue ++ [_]) = if d.changeListener = true then _ else _
        rw [SerialQueue.drained_append, if_pos hlistener]
        rfl
      · have hnone : [WorkerTask.handleCredentialChange
            (d.contents.authStateDidChange uid).currentUser].filterMap WorkerTask.closeCount? = [] :=
          rfl
        rw [← hcount n]
        simp only [Device.outstanding, asked, credentialChange, List.filterMap_append, hnone,
          List.append_nil]
  · next hlistener =>
      rw [if_neg hlistener] at htold ⊢
      refine { h with
        session := hsession
        told := ?_
        outstanding := hcount
        called := hcalled }
      show drained _ _ d.workerQueue = if d.changeListener = true then _ else _
      rw [if_neg hlistener, htold]

/-- The block of a `GetToken` call runs. -/
theorem Around.getTokenCallback {getToken : GetToken} {token : Option AccessToken}
    {error : Option NSError} {mainQueue : List MainTask}
    (h : d.Around user getTokens writes)
    (hqueue : d.mainQueue = .getTokenCallback getToken token error :: mainQueue)
    (huser : user.isSome = true) :
    ({ d with mainQueue }.runMainTask (.getTokenCallback getToken token error)).Around user
      getTokens writes := by
  have hsession := h.session.runMain hqueue
  have hmain := h.session.main
  rw [hqueue, SerialQueue.allFit_cons] at hmain
  have hcalled : ∀ write status, MainTask.setDataCompletion write status ∈ mainQueue →
      (⟨write⟩, status) ∈ d.system.client.notified := fun write status hmem =>
    h.called write status (by rw [hqueue]; exact List.mem_cons_of_mem _ hmem)
  have hcount : ∀ n, (d.outstanding).count n = getTokens.count n := h.outstanding
  have hsome : (drained WorkerTask.after user d.workerQueue).isSome = true := isSome_drained huser
  obtain ⟨hlistener, hdrained⟩ := h.listening hsome
  unfold Device.runMainTask Device.getTokenCallback at hsession ⊢
  dsimp only at hsession ⊢
  split at hsession
  · next hstale =>
      rw [if_pos hstale]
      refine { h with session := hsession, called := hcalled, outstanding := fun n => ?_ }
      rw [← hcount n]
      simp only [Device.outstanding, asked, hqueue, MainTask.getToken?, List.map_append,
        List.filterMap_cons, List.map_cons, List.map_nil, List.count_append, List.count_cons,
        List.count_nil]
      omega
  · next hcurrent =>
      rw [if_neg hcurrent]
      have hcounter : getToken.initialTokenCounter = d.contents.tokenCounter := not_not.1 hcurrent
      refine { h with
        session := hsession
        worker := h.worker.push ?_
        told := ?_
        called := hcalled
        outstanding := fun n => ?_ }
      · rw [hdrained]
        cases error with
        | some error => exact ⟨rfl, rfl⟩
        | none => exact congrArg some (hmain.1 rfl hcounter).symm
      · show drained _ _ (d.workerQueue ++ [_]) = _
        rw [SerialQueue.drained_append]
        exact h.told
      · rw [← hcount n]
        simp only [Device.outstanding, asked, hqueue, MainTask.getToken?, WorkerTask.closeCount?,
          List.filterMap_append, List.filterMap_cons, List.filterMap_nil, List.map_cons,
          List.map_append, List.count_append, List.count_cons, List.count_nil]
        omega

end Main

/-- The main queue loses a block that tells the provider nothing. -/
theorem Around.popMain {user : Option Firestore.User} {getTokens : List Nat} {writes : WriteLog}
    (h : d.Around user getTokens writes) {task : MainTask} {mainQueue : List MainTask}
    (hqueue : d.mainQueue = task :: mainQueue) (hsilent : ∀ contents, task.after contents = contents)
    (hother : task.getToken? = none) :
    Around { d with mainQueue } user getTokens writes := by
  have hpop := h.session.pop hqueue
  rw [hsilent] at hpop
  refine { h with
    session := hpop
    outstanding := fun n => ?_
    called := fun write status hmem => h.called write status ?_ }
  · rw [← h.outstanding n]
    simp only [Device.outstanding, asked, hqueue, List.filterMap_cons_none hother]
  · rw [hqueue]
    exact List.mem_cons_of_mem _ hmem

theorem makeNSError_eq_none {status : Status} (h : makeNSError status = none) :
    status.ok = true := by
  unfold makeNSError at h
  split at h
  · next hcode => simp [Status.ok, hcode]
  · exact absurd h (by simp)

/-- What runs on the main queue leaves the client to the worker queue. -/
theorem perform_frame (d : Device) (effect : Effect) :
    (d.perform effect).system = d.system ∧ (d.perform effect).initialized = d.initialized := by
  cases effect with
  | doNothing | completion => exact ⟨rfl, rfl⟩
  | setData r =>
      unfold perform ensureClientConfigured
      dsimp only
      split <;> exact ⟨rfl, rfl⟩

theorem runMainTask_frame (d : Device) (task : MainTask) :
    (d.runMainTask task).system = d.system ∧
      (d.runMainTask task).initialized = d.initialized := by
  cases task with
  | authStateDidChange uid =>
      unfold runMainTask
      dsimp only
      split <;> exact ⟨rfl, rfl⟩
  | getTokenCallback getToken token error =>
      unfold runMainTask getTokenCallback
      dsimp only
      split <;> exact ⟨rfl, rfl⟩
  | createUserCompletion r result error => exact perform_frame d _
  | setDataCompletion write status =>
      unfold runMainTask
      dsimp only
      split
      · exact ⟨rfl, rfl⟩
      · exact perform_frame d _

/-- A `GetToken` call is one of the client's. -/
theorem Ok.clientUser_of_asked (h : d.Ok initial) {getToken : GetToken} (hmem : getToken ∈ d.asked) :
    d.clientUser.isSome = true := by
  have hcount : 0 < d.clientGetTokens.count getToken.initialCloseCount := by
    rw [← h.around.outstanding]
    exact List.count_pos_iff.2 (List.mem_append_left _ (List.mem_map.2 ⟨getToken, hmem, rfl⟩))
  unfold clientGetTokens at hcount
  unfold clientUser
  split at hcount
  · next hinitialized => rw [if_pos hinitialized, Option.isSome_some]
  · exact absurd hcount (by simp)

theorem ok_runMain (h : d.Ok initial) {task : MainTask} {mainQueue : List MainTask}
    (hqueue : d.mainQueue = task :: mainQueue) :
    ({ d with mainQueue }.runMainTask task).Ok initial := by
  obtain ⟨hsystem, hinitialized⟩ := runMainTask_frame { d with mainQueue } task
  suffices haround : ({ d with mainQueue }.runMainTask task).Around d.clientUser d.clientGetTokens
      d.system.writes by
    refine ⟨?_, ?_, ?_⟩
    · rw [hsystem]
      exact h.system
    · rw [hsystem]
      exact h.owned
    · rw [clientUser, clientGetTokens, hsystem, hinitialized]
      exact haround
  have hmem : task ∈ d.mainQueue := by
    rw [hqueue]
    exact List.mem_cons_self ..
  cases task with
  | authStateDidChange uid => exact h.around.authStateDidChange hqueue
  | getTokenCallback getToken token error =>
      exact h.around.getTokenCallback hqueue
        (h.clientUser_of_asked (mem_asked.2 (Or.inr (Or.inr ⟨_, hmem, rfl⟩))))
  | createUserCompletion r result error =>
      refine (h.around.popMain hqueue (fun _ => rfl) rfl).perform ?_
      have hmain := h.around.session.main
      rw [hqueue, SerialQueue.allFit_cons] at hmain
      cases error with
      | some error => exact trivial
      | none =>
          cases huser : result.map (·.user) with
          | none => simp only [CreateUserRequest.closure, huser, Licensed]
          | some user =>
              obtain ⟨hne, hcurrent⟩ := hmain.1 rfl user huser
              simp only [CreateUserRequest.closure, huser]
              exact ⟨user.uid, hne, hcurrent, rfl⟩
  | setDataCompletion write status =>
      have hpop := h.around.popMain hqueue (fun _ => rfl) rfl
      unfold Device.runMainTask
      dsimp only
      split
      · exact hpop
      · next r hr =>
          refine hpop.perform ?_
          cases herror : makeNSError status with
          | some error =>
              simp only [SetDataRequest.closure, Licensed]
          | none =>
              simp only [SetDataRequest.closure]
              exact ⟨r, rfl, write, status, hr, makeNSError_eq_none herror,
                h.around.called write status hmem⟩

/-! ## The worker queue -/

section Worker

variable {workerQueue : List WorkerTask}

/-- The device without the operation that is about to run. -/
theorem Ok.popWorker (h : d.Ok initial) {task : WorkerTask}
    (hqueue : d.workerQueue = task :: workerQueue) (hnew : task.closeCount? = none) :
    task.Fits d.clientUser ∧
      Around { d with workerQueue } (task.after d.clientUser) d.clientGetTokens d.system.writes := by
  have hworker := h.around.worker
  have htold := h.around.told
  rw [hqueue] at hworker htold
  refine ⟨hworker.1, { h.around with
    session := h.around.session.frame rfl
    worker := hworker.2
    told := htold
    outstanding := fun n => ?_ }⟩
  rw [← h.around.outstanding n]
  simp only [Device.outstanding, hqueue, List.filterMap_cons_none hnew]
  rfl

theorem clientUser_eq_some {user : Firestore.User} (h : d.clientUser = some user) :
    d.initialized = true ∧ d.system.client.currentUser = user := by
  unfold clientUser at h
  split at h
  · next hinitialized => exact ⟨hinitialized, Option.some.inj h⟩
  · exact absurd h (by simp)

theorem clientUser_eq_none (h : d.clientUser = none) : d.initialized = false := by
  unfold clientUser at h
  split at h
  · exact absurd h (by simp)
  · next hinitialized => simpa using hinitialized

theorem clientGetTokens_of (h : d.initialized = true) :
    d.clientGetTokens = d.system.client.writeStream.getTokens := if_pos h

theorem ok_initializeClient (h : d.Ok initial) {user : Firestore.User}
    (hqueue : d.workerQueue = .initializeClient user :: workerQueue) {r : Except String Device}
    (hstep : { d with workerQueue }.runWorkerTask (.initializeClient user) = some r) :
    ∃ d', r = .ok d' ∧ d'.Ok initial := by
  obtain ⟨hnone, haround⟩ := h.popWorker hqueue rfl
  have hinitialized := clientUser_eq_none hnone
  refine ok_clientStep (d := { d with workerQueue, initialized := true }) h.system h.owned rfl
    (by simp [Firestore.System.OwnToken]) ?_ hstep
  rw [clientGetTokens, if_neg (by simp [hinitialized])] at haround
  exact ⟨haround.session.frame rfl, haround.worker, haround.told, haround.outstanding,
    haround.setDatas, haround.profiles, haround.called, haround.completed⟩

theorem ok_handleCredentialChange (h : d.Ok initial) {user : Firestore.User}
    (hqueue : d.workerQueue = .handleCredentialChange user :: workerQueue) {r : Except String Device}
    (hstep : { d with workerQueue }.runWorkerTask (.handleCredentialChange user) = some r) :
    ∃ d', r = .ok d' ∧ d'.Ok initial := by
  obtain ⟨hsome, haround⟩ := h.popWorker hqueue rfl
  obtain ⟨current, hcurrent⟩ := Option.isSome_iff_exists.1 hsome
  obtain ⟨hinitialized, -⟩ := clientUser_eq_some hcurrent
  rw [clientGetTokens_of hinitialized] at haround
  exact ok_clientStep (d := { d with workerQueue }) (a := .credentialChange user) h.system h.owned
    hinitialized (by simp [Firestore.System.OwnToken]) haround hstep

/-- A token reaches the client: it is of the client's user, and the client waits for it. -/
theorem ok_resumeStartWithCredentials (h : d.Ok initial) {n : Nat}
    {maybeToken : Except Status Firestore.Token}
    (hqueue : d.workerQueue = .resumeStartWithCredentials n maybeToken :: workerQueue) :
    (n ∈ d.system.client.writeStream.getTokens ∧ Firestore.System.MayCallBack maybeToken) ∧
    ∀ r, { d with workerQueue }.runWorkerTask (.resumeStartWithCredentials n maybeToken) = some r →
      ∃ d', r = .ok d' ∧ d'.Ok initial := by
  have hworker := h.around.worker
  have htold := h.around.told
  rw [hqueue] at hworker htold
  obtain ⟨hfits, hrest⟩ := hworker
  obtain ⟨current, hcurrent⟩ := Option.isSome_iff_exists.1 hfits.isSome
  obtain ⟨hinitialized, huser⟩ := clientUser_eq_some hcurrent
  have hcount : ∀ m, (Device.outstanding { d with workerQueue }).count m + (if m = n then 1 else 0)
      = d.system.client.writeStream.getTokens.count m := by
    intro m
    rw [← clientGetTokens_of hinitialized, ← h.around.outstanding m]
    simp only [Device.outstanding, asked, hqueue, WorkerTask.closeCount?, List.filterMap_cons,
      List.count_append, List.count_cons, beq_iff_eq, eq_comm (a := n)]
    omega
  have hmem : n ∈ d.system.client.writeStream.getTokens := by
    refine List.count_pos_iff.1 ?_
    rw [← hcount n, if_pos rfl]
    exact Nat.succ_pos _
  have hcall : Firestore.System.MayCallBack maybeToken := by
    cases maybeToken with
    | error status => exact hfits.2
    | ok token => exact trivial
  refine ⟨⟨hmem, hcall⟩, fun r hstep => ?_⟩
  refine ok_clientStep (d := { d with workerQueue }) h.system h.owned hinitialized ?_ ?_ hstep
  · intro token heq
    obtain ⟨-, rfl⟩ := Firestore.System.Action.resumeStart.inj heq
    have hown : d.clientUser.map (·.token) = some token := hfits
    rw [hcurrent] at hown
    rw [← Option.some.inj hown, ← huser]
  · refine { h.around with
      session := h.around.session.frame rfl
      worker := ?_
      told := ?_
      outstanding := fun m => ?_ }
    · rw [hcurrent, ← huser] at hrest
      exact hrest
    · rw [hcurrent, ← huser] at htold
      exact htold
    · show _ = (d.system.client.writeStream.getTokens.erase n).count m
      have hm := hcount m
      by_cases heq : m = n
      · subst heq
        rw [List.count_erase_self]
        rw [if_pos rfl] at hm
        omega
      · rw [List.count_erase_of_ne heq]
        rw [if_neg heq] at hm
        omega

theorem ok_writeMutations (h : d.Ok initial) {r : SetDataRequest}
    (hqueue : d.workerQueue = .writeMutations r :: workerQueue) {result : Except String Device}
    (hstep : { d with workerQueue }.runWorkerTask (.writeMutations r) = some result) :
    ∃ d', result = .ok d' ∧ d'.Ok initial := by
  obtain ⟨⟨uid, hne, hcurrent, hpath⟩, haround⟩ := h.popWorker hqueue rfl
  obtain ⟨hinitialized, huser⟩ := clientUser_eq_some hcurrent
  rw [clientGetTokens_of hinitialized] at haround
  refine ok_clientStep (d := { d with workerQueue, setDatas := d.setDatas ++ [r] }) h.system h.owned
    hinitialized (by simp [Firestore.System.OwnToken]) ?_ hstep
  refine {
    session := haround.session.frame rfl
    worker := ?_
    told := ?_
    outstanding := haround.outstanding
    setDatas := ?_
    profiles := ?_
    called := haround.called
    completed := ?_ }
  · have hworker := haround.worker
    rw [hcurrent, ← huser] at hworker
    exact hworker
  · have htold := haround.told
    rw [hcurrent, ← huser] at htold
    exact htold
  · show (d.system.writes ++ [_]).map Prod.snd = (d.setDatas ++ [r]).map _
    rw [List.map_append, List.map_append, haround.setDatas]
    rfl
  · intro write hmem
    rcases List.mem_append.1 hmem with hmem | hmem
    · exact haround.profiles write hmem
    · refine ⟨uid, hne, r.data, ?_⟩
      rw [List.mem_singleton.1 hmem, hpath]
      exact congrArg (·, _) huser
  · intro completion value hmem
    obtain ⟨r', hr', write, status, hwrite, hok, htold⟩ := haround.completed completion value hmem
    have hlt : write < d.setDatas.length := (List.getElem?_eq_some_iff.1 hwrite).1
    exact ⟨r', hr', write, status, (List.getElem?_append_left hlt).trans hwrite, hok, htold⟩

theorem ok_runWorker (h : d.Ok initial) {task : WorkerTask}
    (hqueue : d.workerQueue = task :: workerQueue) :
    ∃ d', { d with workerQueue }.runWorkerTask task = some (.ok d') ∧ d'.Ok initial := by
  have hgo : ∀ {r : Except String Device}, { d with workerQueue }.runWorkerTask task = some r →
      (∃ d', r = .ok d' ∧ d'.Ok initial) →
      ∃ d', { d with workerQueue }.runWorkerTask task = some (.ok d') ∧ d'.Ok initial := by
    rintro r hstep ⟨d', rfl, hd'⟩
    exact ⟨d', hstep, hd'⟩
  cases task with
  | initializeClient user => exact hgo rfl (ok_initializeClient h hqueue rfl)
  | handleCredentialChange user => exact hgo rfl (ok_handleCredentialChange h hqueue rfl)
  | resumeStartWithCredentials n maybeToken =>
      obtain ⟨hguard, hall⟩ := ok_resumeStartWithCredentials h hqueue
      have hstep : { d with workerQueue }.runWorkerTask (.resumeStartWithCredentials n maybeToken)
          = some ((d.system.after (d.system.client.resumeStartWithCredentials n maybeToken)).map
              (Device.withSystem { d with workerQueue } (.resumeStart n maybeToken))) := by
        simp only [runWorkerTask, clientStep, Firestore.System.step, if_pos hguard, Option.map_some]
      exact hgo hstep (hall _ hstep)
  | writeMutations r => exact hgo rfl (ok_writeMutations h hqueue rfl)

end Worker

/-! ## Every step -/

theorem Ok.loadUser (h : d.Ok initial) (serial : Nat) (keychainError : Option NSError) :
    (d.loadUser serial keychainError).Ok initial := by
  refine h.front (h.around.session.loadUser serial keychainError) (fun n => ?_)
    (fun write status hmem => ?_) rfl
  · have hsame := d.asked_notify (d.auth.loadUser serial keychainError).1
      (d.auth.loadUser serial keychainError).2
    exact congrArg (fun l => (l.map (·.initialCloseCount)).count n) hsame
  · have hnotified : MainTask.setDataCompletion write status
        ∈ (d.notify (d.auth.loadUser serial keychainError).1
          (d.auth.loadUser serial keychainError).2).mainQueue := hmem
    exact called_notify hnotified

theorem Ok.launch (h : d.Ok initial) (early : Option (Nat × Option NSError)) :
    (d.launch early).Ok initial := by
  have hsession := session_launch h.around.session.auth early
  have hnew : (d.launch early).system = d.system ∧ (d.launch early).initialized = false ∧
      (d.launch early).workerQueue = [] ∧ (d.launch early).changeListener = false ∧
      (d.launch early).setDatas = d.setDatas ∧ (d.launch early).completed = d.completed := by
    cases early <;> exact ⟨rfl, rfl, rfl, rfl, rfl, rfl⟩
  have hmain : (d.launch early).asked = [] ∧
      ∀ task ∈ (d.launch early).mainQueue, ∃ uid, task = .authStateDidChange uid := by
    cases early with
    | none => exact ⟨rfl, fun task hmem => absurd hmem List.not_mem_nil⟩
    | some early =>
        refine ⟨?_, fun task hmem => ?_⟩
        · show List.filterMap MainTask.getToken? (List.map _ _) = []
          simp [List.filterMap_map, MainTask.getToken?]
        · obtain ⟨uid, -, rfl⟩ := List.mem_map.1 hmem
          exact ⟨uid, rfl⟩
  obtain ⟨hsystem, hinitialized, hworker, hlistener, hsetDatas, hcompleted⟩ := hnew
  obtain ⟨hasked, htasks⟩ := hmain
  refine ⟨hsystem ▸ h.system, hsystem ▸ h.owned, ?_⟩
  rw [clientUser, clientGetTokens, if_neg (by simp [hinitialized]), if_neg (by simp [hinitialized]),
    hsystem]
  refine ⟨hsession, ?_, ?_, ?_, ?_, h.around.profiles, ?_, ?_⟩
  · rw [hworker]
    exact trivial
  · rw [hworker, if_neg (by simp [hlistener])]
    rfl
  · intro n
    rw [Device.outstanding, hasked, hworker]
    rfl
  · rw [hsetDatas]
    exact h.around.setDatas
  · intro write status hmem
    obtain ⟨uid, heq⟩ := htasks _ hmem
    exact absurd heq (by simp)
  · intro completion value hmem
    rw [hcompleted] at hmem
    obtain ⟨r, hr, hreported⟩ := h.around.completed completion value hmem
    refine ⟨r, hr, ?_⟩
    rw [Reported, hsetDatas, hsystem]
    exact hreported

/-- An event of a call or a timer of the client. -/
theorem ok_client (h : d.Ok initial) {a : Firestore.System.Action} {r : Except String Device}
    (hstep : d.step (.client a) = some r) : ∃ d', r = .ok d' ∧ d'.Ok initial := by
  simp only [step] at hstep
  split at hstep
  · next hevent =>
      have hown : d.initialized = true → d.system.OwnToken a → d.system.kept a
          = d.system.client.writeStream.getTokens → d.system.userAfter a
          = d.system.client.currentUser → d.system.writesAfter a = d.system.writes →
          ∃ d', r = .ok d' ∧ d'.Ok initial := by
        intro hinitialized htoken hkept huser hwrites
        refine ok_clientStep h.system h.owned hinitialized htoken ?_ hstep
        have haround := h.around
        rw [clientUser, if_pos hinitialized, clientGetTokens_of hinitialized] at haround
        rw [hkept, huser, hwrites]
        exact haround
      cases a with
      | streamRead | streamFinish | backoffElapsed | idleTimeout =>
          exact hown hevent (by simp [Firestore.System.OwnToken]) rfl rfl rfl
      | serve answer => exact ok_served h (i := 0) (Or.inl rfl) hstep
      | serveReleased i answer => exact ok_served h (Or.inr rfl) hstep
      | setData | credentialChange | resumeStart | restart => exact absurd hevent (by simp [isEvent])
  · exact absurd hstep (by simp)

theorem ok_step (h : d.Ok initial) {a : Action} {r : Except String Device}
    (hstep : d.step a = some r) : ∃ d', r = .ok d' ∧ d'.Ok initial := by
  cases a with
  | signUpBtTap signUpVC fields =>
      simp only [step] at hstep
      split at hstep
      · exact absurd hstep (by simp)
      · obtain rfl := Option.some.inj hstep
        exact ⟨_, rfl, h.front (h.around.session.frame rfl)
          (fun _ => rfl) (fun _ _ hmem => hmem) rfl⟩
  | createUserResponse r response serial keychainError => exact ok_createUserResponse h hstep
  | signInResponse response serial keychainError =>
      simp only [step] at hstep
      split at hstep
      · next hguard =>
          obtain rfl := Option.some.inj hstep
          exact ⟨_, rfl, h.notify
            (h.around.session.signInResponse hguard.2 serial keychainError)⟩
      · exact absurd hstep (by simp)
  | signOut keychainError =>
      simp only [step] at hstep
      split at hstep
      · obtain rfl := Option.some.inj hstep
        exact ⟨_, rfl, h.notify (h.around.session.notify
          (NotifyingAuth.changed_signOut h.around.session.auth keychainError))⟩
      · exact absurd hstep (by simp)
  | loadUser serial keychainError =>
      simp only [step] at hstep
      split at hstep
      · exact absurd hstep (by simp)
      · obtain rfl := Option.some.inj hstep
        exact ⟨_, rfl, h.loadUser serial keychainError⟩
  | getTokenForcingRefresh => exact ok_getTokenForcingRefresh h hstep
  | getTokenReply i isCurrent reply => exact ok_getTokenReply h hstep
  | tokenReply uid isCurrent reply =>
      simp only [step] at hstep
      split at hstep
      · next hguard =>
          obtain ⟨auth, posted, token, error, heq, hchanged, -⟩ :=
            NotifyingAuth.changed_internalGetToken h.around.session.auth hguard.2 reply
          simp only [heq, Option.some.injEq] at hstep
          exact ⟨_, hstep.symm, h.notify (h.around.session.notify hchanged)⟩
      · exact absurd hstep (by simp)
  | runMain =>
      simp only [step] at hstep
      split at hstep
      · exact absurd hstep (by simp)
      · next task mainQueue hqueue =>
          obtain rfl := Option.some.inj hstep
          exact ⟨_, rfl, ok_runMain h hqueue⟩
  | runWorker =>
      simp only [step] at hstep
      split at hstep
      · exact absurd hstep (by simp)
      · next task workerQueue hqueue =>
          obtain ⟨d', hrun, hd'⟩ := ok_runWorker h hqueue
          rw [hrun] at hstep
          exact ⟨d', (Option.some.inj hstep).symm, hd'⟩
  | client a => exact ok_client h hstep
  | relaunch early =>
      obtain rfl := Option.some.inj hstep
      exact ⟨_, rfl, h.launch early⟩

end Device

end Harusali
