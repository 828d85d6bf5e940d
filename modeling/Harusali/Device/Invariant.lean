import Harusali.Client.Onward
import Harusali.Device.Session

set_option autoImplicit false

/-! # The worker queue

What an operation finds when its turn comes: a write is under the user whose document it sets, and
a token is of the user the client has (`WorkerTask.Fits`). A `GetToken` call the client waits for
is in exactly one place of the device (`outstanding`), so the call back always finds it. The
invariant of the device, `Device.Ok`, joins this with the invariants of the session and of the
client. -/

namespace Harusali

open SerialQueue (drained AllFit)
open Firestore (WriteLog Status)
open Firestore.System (toMutations)

namespace WorkerTask

/-- What an operation makes of the client's user, who is `none` before `Initialize`. -/
def after (user : Option Firestore.User) : WorkerTask → Option Firestore.User
  | .initializeClient user => some user
  | .handleCredentialChange user => some user
  | _ => user

def Fits (user : Option Firestore.User) : WorkerTask → Prop
  | .initializeClient _ => user = none
  | .handleCredentialChange _ => user.isSome = true
  | .resumeStartWithCredentials _ (.error status) => user.isSome = true ∧ status.ok = false
  | .resumeStartWithCredentials _ (.ok token) => user.map (·.token) = some token
  | .writeMutations r => ∃ uid h, user = some (.authenticated uid h) ∧ r.path = ⟨"User", uid⟩

def closeCount? : WorkerTask → Option Nat
  | .resumeStartWithCredentials n _ => some n
  | _ => none

theorem Fits.isSome {user : Option Firestore.User} {n : Nat}
    {maybeToken : Except Status Firestore.Token}
    (h : Fits user (.resumeStartWithCredentials n maybeToken)) : user.isSome = true := by
  cases maybeToken with
  | error status => exact h.1
  | ok token =>
      obtain ⟨u, rfl, -⟩ := Option.map_eq_some_iff.1 h
      rfl

end WorkerTask

namespace Device

/-- The `GetToken` calls that have not called back, by the close count each was made with. -/
def outstanding (d : Device) : List Nat :=
  d.asked.map (·.initialCloseCount) ++ d.workerQueue.filterMap WorkerTask.closeCount?

/-- The user of this process's client. -/
def clientUser (d : Device) : Option Firestore.User :=
  if d.initialized then some d.system.client.currentUser else none

/-- The `GetToken` calls this process's client waits for. -/
def clientGetTokens (d : Device) : List Nat :=
  if d.initialized then d.system.client.writeStream.getTokens else []

/-- The write of a profile document: under the user whose document it is. -/
def IsProfile (write : Firestore.User × List Firestore.SetMutation) : Prop :=
  ∃ uid h data, write = (.authenticated uid h, toMutations ⟨"User", uid⟩ data)

/-- The callback of a write that made this `setData` call has been told of success. -/
def Reported (d : Device) (r : SetDataRequest) : Prop :=
  ∃ write status, d.setDatas[write]? = some r ∧ status.ok = true ∧
    (⟨write⟩, status) ∈ d.system.client.notified

/-- The device is in order around a client with this user, these outstanding `GetToken` calls and
    these writes. -/
structure Around (d : Device) (user : Option Firestore.User) (getTokens : List Nat)
    (writes : WriteLog) : Prop where
  session : d.Session
  worker : AllFit WorkerTask.after WorkerTask.Fits user d.workerQueue
  told : drained WorkerTask.after user d.workerQueue
    = if d.changeListener then some d.contents.currentUser else none
  outstanding : ∀ n, d.outstanding.count n = getTokens.count n
  setDatas : writes.map Prod.snd = d.setDatas.map fun r => toMutations r.path r.data
  profiles : ∀ write ∈ writes, IsProfile write
  called : ∀ write status, MainTask.setDataCompletion write status ∈ d.mainQueue →
    (⟨write⟩, status) ∈ d.system.client.notified
  completed : ∀ completion value, (completion, .success value) ∈ d.completed →
    ∃ r, r.completion = completion ∧ d.Reported r

structure Ok (initial : Firestore) (d : Device) : Prop where
  system : d.system.Ok initial
  owned : d.system.Owned
  around : d.Around d.clientUser d.clientGetTokens d.system.writes

variable {initial : Firestore} {d : Device} {user : Option Firestore.User} {getTokens : List Nat}
  {writes : WriteLog}

theorem isSome_drained {queue : List WorkerTask} (h : user.isSome = true) :
    (drained WorkerTask.after user queue).isSome = true := by
  refine SerialQueue.drained_preserves (P := fun (user : Option Firestore.User) =>
    user.isSome = true) (fun user task _ hsome => ?_) h
  cases task with
  | initializeClient | handleCredentialChange => rfl
  | resumeStartWithCredentials | writeMutations => exact hsome

/-- A client that has a user or waits for one has told the provider to listen. -/
theorem Around.listening (h : d.Around user getTokens writes)
    (hsome : (drained WorkerTask.after user d.workerQueue).isSome = true) :
    d.changeListener = true ∧
      drained WorkerTask.after user d.workerQueue = some d.contents.currentUser := by
  cases hlistener : d.changeListener with
  | true => exact ⟨rfl, by rw [h.told, if_pos hlistener]⟩
  | false =>
      rw [h.told, if_neg (by simp [hlistener])] at hsome
      exact absurd hsome (by simp)

/-! ## The client acts -/

theorem Around.withSystem {a : Firestore.System.Action}
    (h : d.Around user getTokens (d.system.writesAfter a)) {system : Firestore.System}
    (heffect : Firestore.System.Effect d.system a system) :
    (d.withSystem a system).Around user
      (getTokens ++ system.client.writeStream.getTokens.drop (d.system.kept a).length)
      system.writes := by
  obtain ⟨-, -, hnotified⟩ := Firestore.System.onward_of_effect heffect
  refine ⟨h.session.withSystem a system, h.worker, h.told, fun n => ?_, ?_, ?_, ?_, ?_⟩
  · have hcount := h.outstanding n
    have hsilent : ∀ notified : List (Firestore.StatusCallback × Status),
        (notified.map fun p => MainTask.setDataCompletion p.1.write p.2).filterMap
          MainTask.getToken? = [] := by
      intro notified
      simp [List.filterMap_map, MainTask.getToken?]
    simp only [Device.outstanding, asked, Device.withSystem, List.filterMap_append, hsilent,
      List.append_nil, List.map_append, List.count_append, List.map_map] at hcount ⊢
    have hnew : ∀ l : List Nat, l.map ((fun g : GetToken => g.initialCloseCount) ∘
        fun n => (⟨n, d.contents.tokenCounter⟩ : GetToken)) = l := fun l => List.map_id'' (fun _ => rfl) l
    rw [hnew]
    omega
  · rw [Firestore.System.writes_of_effect heffect]
    exact h.setDatas
  · rw [Firestore.System.writes_of_effect heffect]
    exact h.profiles
  · intro write status hmem
    rcases List.mem_append.1 hmem with hmem | hmem
    · exact hnotified.subset (h.called write status hmem)
    · obtain ⟨⟨callback, status'⟩, hp, heq⟩ := List.mem_map.1 hmem
      obtain ⟨rfl, rfl⟩ := MainTask.setDataCompletion.inj heq
      exact List.mem_of_mem_drop hp
  · intro completion value hmem
    obtain ⟨r, hr, write, status, hwrite, hok, htold⟩ := h.completed completion value hmem
    exact ⟨r, hr, write, status, hwrite, hok, hnotified.subset htold⟩

/-- An action of the client of this process, on a device that is in order but for it. -/
theorem ok_clientStep {a : Firestore.System.Action} (hsystem : d.system.Ok initial)
    (howned : d.system.Owned) (hinitialized : d.initialized = true) (htoken : d.system.OwnToken a)
    (h : d.Around (some (d.system.userAfter a)) (d.system.kept a) (d.system.writesAfter a))
    {r : Except String Device} (hstep : d.clientStep a = some r) : ∃ d', r = .ok d' ∧ d'.Ok initial := by
  obtain ⟨system, hsome, rfl⟩ := Option.map_eq_some_iff.1 hstep
  obtain ⟨system, rfl, heffect, hok⟩ := Firestore.System.ok_of_step hsystem hsome
  obtain ⟨huser, hkept, -⟩ := Firestore.System.onward_of_effect heffect
  refine ⟨d.withSystem a system, rfl, hok,
    Firestore.System.owned_of_effect hsystem howned htoken heffect, ?_⟩
  have haround := h.withSystem heffect
  have htokens : d.system.kept a ++
      system.client.writeStream.getTokens.drop (d.system.kept a).length
        = system.client.writeStream.getTokens := by
    obtain ⟨new, hnew⟩ := hkept
    rw [← hnew, List.drop_left]
  rw [htokens, ← huser] at haround
  have hclient : (d.withSystem a system).initialized = true := hinitialized
  rw [clientUser, clientGetTokens, if_pos hclient, if_pos hclient]
  exact haround

/-- The service acts on the calls of this process or of an earlier one. -/
theorem ok_served (h : d.Ok initial) {a : Firestore.System.Action} {answer : Firestore.Answer}
    {i : Nat} (ha : a = .serve answer ∨ a = .serveReleased i answer) {r : Except String Device}
    (hstep : d.clientStep a = some r) : ∃ d', r = .ok d' ∧ d'.Ok initial := by
  have htoken : d.system.OwnToken a := by rcases ha with rfl | rfl <;> simp [Firestore.System.OwnToken]
  have hwrites : d.system.writesAfter a = d.system.writes := by rcases ha with rfl | rfl <;> rfl
  have hkept : d.system.kept a = d.system.client.writeStream.getTokens := by
    rcases ha with rfl | rfl <;> rfl
  have huser : d.system.userAfter a = d.system.client.currentUser := by
    rcases ha with rfl | rfl <;> rfl
  cases hinitialized : d.initialized with
  | true =>
      refine ok_clientStep h.system h.owned hinitialized htoken ?_ hstep
      have haround := h.around
      rw [clientUser, clientGetTokens, if_pos hinitialized, if_pos hinitialized] at haround
      rw [huser, hkept, hwrites]
      exact haround
  | false =>
      obtain ⟨system, hsome, rfl⟩ := Option.map_eq_some_iff.1 hstep
      obtain ⟨system, rfl, heffect, hok⟩ := Firestore.System.ok_of_step h.system hsome
      refine ⟨d.withSystem a system, rfl, hok,
        Firestore.System.owned_of_effect h.system h.owned htoken heffect, ?_⟩
      have haround := h.around
      rw [← hwrites] at haround
      have haround := haround.withSystem heffect
      have hquiet := (Firestore.System.served_quiet heffect ha).1
      rw [hkept, hquiet, List.drop_length, List.append_nil] at haround
      have hclient : ¬ (d.withSystem a system).initialized = true := by
        show ¬ d.initialized = true
        simp [hinitialized]
      rw [clientUser, clientGetTokens, if_neg (by simp [hinitialized]),
        if_neg (by simp [hinitialized])] at haround
      rw [clientUser, clientGetTokens, if_neg hclient, if_neg hclient]
      exact haround

end Device

end Harusali
