import Harusali.Client.Calls
import Harusali.Machine.Refinement

set_option autoImplicit false

/-! # What the write path guarantees

Over every run from an installation: with writes, credential changes, failing calls, timers and
restarts of the process in any order. The client refines an outbox (`refinesOutbox`), so no write
is lost, settled twice or settled before an earlier one of its user; together with the calls this
gives what a reported result says about the documents. -/

namespace Harusali.Firestore

open WriteLog (userOf mutationsOf)

namespace System

/-! ## Every run keeps the invariant -/

/-- Nothing on disk. -/
def emptyDisk : Persistence where
  mutation := []
  mutationQueue _ := []

theorem ordered_emptyDisk : emptyDisk.Ordered := ⟨List.Pairwise.nil, by simp [emptyDisk]⟩

/-- The system after the first process has started. -/
def installed (user : User) (firestore : Harusali.Firestore) : System where
  client := (FirestoreClient.booted emptyDisk user [] [] []).refill
  backend := { firestore, commits := [], refusals := [] }
  writes := []
  processStart := 0

theorem install_eq (user : User) (firestore : Harusali.Firestore) :
    install user firestore = .ok (installed user firestore) := by
  have hstart : FirestoreClient.initializeClient { mutation := [], mutationQueue := fun _ => [] }
      user [] [] [] = .ok (FirestoreClient.booted emptyDisk user [] [] []).refill :=
    FirestoreClient.initializeClient_eq ordered_emptyDisk user [] [] []
  rw [install, hstart]
  rfl

theorem calls_installed (user : User) (firestore : Harusali.Firestore) :
    (installed user firestore).client.calls = [] := by
  have hnone := FirestoreClient.grpcStream_refill
    (c := FirestoreClient.booted emptyDisk user [] [] []) rfl
  simp only [installed, FirestoreClient.calls, hnone, Option.toList_none, List.append_nil]
  rfl

theorem ok_installed (user : User) (firestore : Harusali.Firestore) :
    (installed user firestore).Ok firestore := by
  have hcalls : ∀ call ∈ (installed user firestore).client.calls,
      CallOk (installed user firestore).writes (installed user firestore).backend call := by
    simp [calls_installed]
  exact {
    client := (FirestoreClient.fillable_booted ordered_emptyDisk user [] [] []).ok
    start := Nat.le_refl _
    books := ⟨fun row hrow => absurd hrow List.not_mem_nil,
      fun _ _ _ => ⟨fun h => absurd h (by simp [installed, FirestoreClient.books,
        FirestoreClient.refill, FirestoreClient.booted]), fun ⟨_, h, _⟩ => absurd h List.not_mem_nil⟩,
      Outbox.sound_of_items_eq_nil rfl rfl rfl rfl⟩
    backend := ⟨by simp [installed, Backend.committed], rfl, by simp [installed, Backend.committed]⟩
    settled := fun p hp => absurd hp List.not_mem_nil
    live := fun call hcall => hcalls call (FirestoreClient.mem_calls.2 (Or.inr hcall))
    released := fun call hmem => hcalls call (FirestoreClient.mem_calls.2 (Or.inl hmem)) }

variable {user : User} {firestore : Harusali.Firestore} {actions : List Action}

theorem ok_of_run {r : Except String System}
    (hrun : machine.run (install user firestore) actions = some r) :
    ∃ s, r = .ok s ∧ s.Ok firestore := by
  refine Machine.run_preserves (P := fun r => ∃ s, r = .ok s ∧ s.Ok firestore) ?_ hrun ?_
  · rintro _ a r hstep ⟨s, rfl, hs⟩
    obtain ⟨s', hr, -, hs'⟩ := ok_of_step hs hstep
    exact ⟨s', hr, hs'⟩
  · exact ⟨_, install_eq user firestore, ok_installed user firestore⟩

theorem ok_of_run_ok {s : System}
    (hrun : machine.run (install user firestore) actions = some (.ok s)) : s.Ok firestore := by
  obtain ⟨s', heq, hok⟩ := ok_of_run hrun
  rw [Except.ok.inj heq]
  exact hok

/-! ## A sample -/

def sampleUser : User := .authenticated "uid1" (by decide)

def samplePath : DocumentPath := ⟨"User", "uid1"⟩

def sampleData : DocumentData := [("email", "user@example.com")]

def emptyStore : Harusali.Firestore := ⟨fun _ => none⟩

/-- A write that is sent and carried out; the answer has not been read. -/
def sampleSent : List Action :=
  [.setData samplePath sampleData, .resumeStart 0 (.ok (some "uid1")),
   .serve (.accept (.response [] (.ok 0))), .streamRead, .serve (.accept (.response [1] (.ok 1)))]

/-- The answer is read as well. -/
def sampleReported : List Action := sampleSent ++ [.streamRead]

theorem exists_ok_run (actions : List Action) (p : System → Bool)
    (h : (machine.run (install sampleUser emptyStore) actions).any
      (fun r => r.toOption.any p) = true) :
    ∃ s, machine.run (install sampleUser emptyStore) actions = some (.ok s) ∧ p s = true := by
  obtain ⟨r, hrun, hr⟩ := Machine.exists_run_of_any machine _ actions _ h
  cases r with
  | error message => exact absurd hr (by simp [Except.toOption])
  | ok s => exact ⟨s, hrun, hr⟩

/-! ## The client is an outbox -/

def outbox (s : System) : Outbox User (List SetMutation) Status :=
  s.client.books.outbox s.writes s.processStart

/-- What an action does to the outbox: a write is put in, the first write of the current user is
    settled, or nothing. -/
def outboxAction (s : System) (a : Action) :
    Option (Outbox.Action User (List SetMutation) Status) :=
  match a with
  | .setData path data => some (.put s.client.currentUser (toMutations path data))
  | .restart _ => some .restart
  | a =>
      match s.step a with
      | some (.ok s') => (s'.client.settled[s.client.settled.length]?).map fun p =>
          .settle s.client.currentUser p.2
      | _ => none

theorem outboxAction_of_silent {s s' : System} {a : Action}
    (hsilent : ∀ path data, a ≠ .setData path data) (hboot : ∀ user, a ≠ .restart user)
    (hstep : s.step a = some (.ok s')) :
    s.outboxAction a = (s'.client.settled[s.client.settled.length]?).map fun p =>
      .settle s.client.currentUser p.2 := by
  cases a with
  | setData path data => exact absurd rfl (hsilent path data)
  | restart user => exact absurd rfl (hboot user)
  | credentialChange | resumeStart | streamRead | streamFinish | backoffElapsed | idleTimeout | serve
  | serveReleased => simp only [outboxAction, hstep]

theorem outbox_of_entry {initial : Harusali.Firestore} {s s' : System} {a : Action}
    (h : s.Ok initial) (hstep : s.step a = some (.ok s')) (hentry : Entry s a s') :
    Outbox.machine.stepOpt s.outbox (s.outboxAction a) = some s'.outbox := by
  cases hentry with
  | none _ _ hsilent hboot hwrites hstart hbooks =>
      have hsame : s'.client.settled = s.client.settled := congrArg Books.settled hbooks
      rw [outboxAction_of_silent hsilent hboot hstep, hsame, List.getElem?_eq_none (Nat.le_refl _)]
      simp only [Option.map_none, Machine.stepOpt, outbox, hwrites, hstart, hbooks]
  | filed path data s' hwrites hstart hbooks =>
      simp only [outbox, hwrites, hstart, hbooks, outbox_issue]
      rfl
  | settled _ _ hsilent hboot batch rest status hqueue _ hwrites hstart hbooks =>
      have hmem : batch ∈ s.client.queue := by rw [hqueue]; exact List.mem_cons_self ..
      have hlast : s'.client.settled = s.client.settled ++ [(batch.write, status)] :=
        congrArg Books.settled hbooks
      rw [outboxAction_of_silent hsilent hboot hstep, hlast, List.getElem?_concat_length]
      show (s.outbox.waitingFor s.client.currentUser).head?.map _ = _
      rw [outbox, h.books.head_queue h.client.queue hqueue, Option.map_some, outbox, hwrites, hstart,
        hbooks, h.books.outbox_settle h.client.queue hmem]
  | restarted user s' hwrites hstart hbooks =>
      simp only [outbox, hwrites, hstart, hbooks]
      rfl

/-- The client refines an outbox. -/
def refinesOutbox (initial : Harusali.Firestore) :
    Refines machine (Outbox.machine (κ := User) (α := List SetMutation) (ρ := Status)) where
  Ok r := ∃ s, r = .ok s ∧ s.Ok initial
  proj
    | .ok s => s.outbox
    | .error _ => ⟨[], [], [], 0, []⟩
  act
    | .ok s, a => s.outboxAction a
    | .error _, _ => none
  ok_step := by
    rintro _ a r hstep ⟨s, rfl, hs⟩
    obtain ⟨s', hr, -, hs'⟩ := ok_of_step hs hstep
    exact ⟨s', hr, hs'⟩
  step := by
    rintro _ a r ⟨s, rfl, hs⟩ hstep
    obtain ⟨s', rfl, heffect, hs'⟩ := ok_of_step hs hstep
    exact outbox_of_entry hs hstep (entry_of_effect hs heffect)

/-- **Every run of the client is a run of an outbox.** -/
theorem run_is_outbox_run {s : System}
    (hrun : machine.run (install user firestore) actions = some (.ok s)) :
    Outbox.machine.run ⟨[], [], [], 0, []⟩
      ((refinesOutbox firestore).acts (install user firestore) actions) = some s.outbox := by
  rw [install_eq] at hrun ⊢
  exact (refinesOutbox firestore).run ⟨_, rfl, ok_installed user firestore⟩ hrun

theorem run_is_outbox_run_sampleReported :
    ∃ s, machine.run (install sampleUser emptyStore) sampleReported = some (.ok s) ∧
      Outbox.machine.run ⟨[], [], [], 0, []⟩
        ((refinesOutbox emptyStore).acts (install sampleUser emptyStore) sampleReported)
          = some s.outbox := by
  obtain ⟨s, hrun, -⟩ := exists_ok_run sampleReported (fun _ => true) (by decide)
  exact ⟨s, hrun, run_is_outbox_run hrun⟩

/-! ## No assertion fails -/

section Writes

variable {s : System} (hrun : machine.run (install user firestore) actions = some (.ok s))

include hrun

end Writes

/-- What has been carried out or settled stays so. -/
theorem grows_of_run {initial : Harusali.Firestore} {s : System} (h : s.Ok initial)
    {more : List Action} {t : System} (hrun : machine.run (.ok s) more = some (.ok t)) :
    t.Ok initial ∧ s.backend.Grows t.backend ∧ s.writes <+: t.writes := by
  have hgrows : ∀ r, machine.run (.ok s) more = some r → ∃ t, r = .ok t ∧ t.Ok initial ∧
      s.backend.Grows t.backend ∧ s.writes <+: t.writes := by
    intro r hrun
    refine Machine.run_preserves (P := fun r => ∃ t, r = .ok t ∧ t.Ok initial ∧
      s.backend.Grows t.backend ∧ s.writes <+: t.writes) ?_ hrun ⟨s, rfl, h, .refl _, List.prefix_refl _⟩
    rintro _ a r hstep ⟨u, rfl, hu, hgrows, hwrites⟩
    obtain ⟨u', rfl, heffect, hu'⟩ := ok_of_step hu hstep
    obtain ⟨hmore, -⟩ := backend_of_effect hu heffect
    exact ⟨u', rfl, hu', ⟨hgrows.commits.trans hmore.commits, hgrows.refusals.trans hmore.refusals⟩,
      hwrites.trans (writes_of_entry (entry_of_effect hu heffect))⟩
  obtain ⟨t', heq, ht⟩ := hgrows _ hrun
  rw [Except.ok.inj heq]
  exact ht

/-- A success is only reported of a write that has been carried out. -/
theorem committed_of_reported {initial : Harusali.Firestore} {s : System} (h : s.Ok initial)
    {write : Nat} {status : Status} (hstatus : status.ok = true)
    (hreported : (⟨write⟩, status) ∈ s.client.notified) : write ∈ s.backend.committed := by
  have hsettled : (write, status) ∈ s.client.settled :=
    h.books.sound.reported.subset (List.mem_map.2 ⟨(⟨write⟩, status), hreported, rfl⟩)
  rcases h.settled _ hsettled with ⟨-, hcommitted⟩ | ⟨hpermanent, -⟩
  · exact hcommitted
  · have hnot := not_ok_of_isPermanentWriteError hpermanent
    exact absurd (hnot.symm.trans hstatus) (by simp)

/-- The document of a write that has been carried out has the data of such a write. -/
theorem document_of_committed {initial : Harusali.Firestore} {s : System} (h : s.Ok initial)
    {write : Nat} (hcommitted : write ∈ s.backend.committed) {mutation : SetMutation}
    (hmutation : mutation ∈ mutationsOf s.writes write) :
    ∃ write' ∈ s.backend.committed, ∃ m ∈ mutationsOf s.writes write', m.key = mutation.key ∧
      s.backend.firestore.document mutation.key = some m.value := by
  rw [h.backend.documents]
  rcases document_documentsAfter s.writes initial s.backend.committed mutation.key with
    hdoc | ⟨hnone, -⟩
  · exact hdoc
  · exact absurd rfl (hnone write hcommitted _ hmutation)

/-- **A write whose callback was told of success is among the documents, whatever happens later.** Its
    document is there with the data of a write for it, its own if no other was made. -/
theorem reported_write_stored {s : System}
    (hrun : machine.run (install user firestore) actions = some (.ok s)) {write : Nat}
    (hreported : (⟨write⟩, .OK) ∈ s.client.notified) {owner : User} {path : DocumentPath}
    {data : DocumentData} (hmade : s.writes[write]? = some (owner, toMutations path data))
    {more : List Action} {t : System} (hmore : machine.run (.ok s) more = some (.ok t)) :
    ∃ write' ∈ t.backend.committed, ∃ m ∈ mutationsOf t.writes write', m.key = path ∧
      t.backend.firestore.document path = some m.value := by
  have hok := ok_of_run_ok hrun
  obtain ⟨ht, hgrows, hwrites⟩ := grows_of_run hok hmore
  have hcommitted := hgrows.committed (committed_of_reported hok rfl hreported)
  have hmutation : (⟨path, data⟩ : SetMutation) ∈ mutationsOf t.writes write := by
    rw [mutationsOf, WriteLog.getElem?_mono hwrites hmade]
    exact List.mem_singleton.2 rfl
  exact document_of_committed ht hcommitted hmutation

theorem reported_write_stored_sampleReported :
    ∃ s, machine.run (install sampleUser emptyStore) sampleReported = some (.ok s) ∧
      ∃ write' ∈ s.backend.committed, ∃ m ∈ mutationsOf s.writes write', m.key = samplePath ∧
        s.backend.firestore.document samplePath = some m.value := by
  obtain ⟨s, hrun, hs⟩ := exists_ok_run sampleReported
    (fun s => decide ((⟨0⟩, .OK) ∈ s.client.notified ∧
      s.writes[0]? = some (sampleUser, toMutations samplePath sampleData))) (by decide)
  obtain ⟨hreported, hmade⟩ := of_decide_eq_true hs
  have hstay : machine.run (.ok s) [] = some (.ok s) := rfl
  exact ⟨s, hrun, reported_write_stored hrun hreported hmade hstay⟩

/-! ## Errors that are not reported -/

theorem books_failed {c : FirestoreClient} {batch : MutationBatch} {rest : List MutationBatch}
    (hpipeline : c.writePipeline = batch :: rest)
    (hhandshake : c.writeStream.handshakeComplete = true) {status : Status}
    (hpermanent : isPermanentWriteError status = true) :
    (c.failed status).books = (c.settle batch status).books := by
  rw [FirestoreClient.failed,
    FirestoreClient.reacted_permanent (c := c.letGo status) hpipeline hhandshake hpermanent]
  exact FirestoreClient.books_settle_frame c batch status _ _ _

/-- **A refusal is charged to the first write that has not been acknowledged, not to the one that
    was refused.** Where the service has carried out a write and then refused a later one of the
    same call for good, and the call ends before the first answer is read, the first write is
    settled with the error of the other, although it is among the documents. The refused one stays
    in the queue. -/
theorem refusal_charged_to_unread {s : System}
    (hrun : machine.run (install user firestore) actions = some (.ok s)) {call : Call}
    (hcall : s.client.writeStream.grpcStream = some call)
    (hhandshake : s.client.writeStream.handshakeComplete = true) {status : Status}
    (hended : call.ended = some status) (hpermanent : isPermanentWriteError status = true)
    {response : Response} {responses : List Response}
    (hresponses : call.responses = response :: responses) :
    ∃ write refused t, write ∈ s.backend.committed ∧ write < refused ∧
      (refused, status) ∈ s.backend.refusals ∧ s.step (.streamFinish status) = some (.ok t) ∧
      (write, status) ∈ t.client.settled ∧ ∀ status', (refused, status') ∉ t.client.settled := by
  have hok := ok_of_run_ok hrun
  have hcallOk := hok.live call hcall
  obtain ⟨hopened, hcarries⟩ := hok.client.stream.call call hcall
  rw [if_pos hhandshake, Call.Carries, hresponses] at hcarries
  obtain ⟨hstatus, request, requests, hrequests, hrefused⟩ := hcallOk.ended status hended
  -- the unread answer is for the first write of the pipeline, the refused request for a later one
  obtain ⟨batch, rest, hpipeline⟩ : ∃ batch rest, s.client.writePipeline = batch :: rest := by
    cases hpipeline : s.client.writePipeline with
    | nil =>
        rw [hpipeline] at hcarries
        exact absurd hcarries (by simp)
    | cons batch rest => exact ⟨batch, rest, rfl⟩
  rw [hpipeline, List.map_cons, List.map_cons, List.cons_append, List.cons.injEq] at hcarries
  obtain ⟨hfirst, hothers⟩ := hcarries
  obtain ⟨refused, hlater, hwrite⟩ : ∃ refused ∈ rest, some refused.write = request.write? := by
    have hmem : request.write? ∈ rest.map fun batch => some batch.write := by
      rw [← hothers, hrequests]
      exact List.mem_append_right _ (List.mem_map_of_mem (List.mem_cons_self ..))
    exact List.mem_map.1 hmem
  have hqueued : ∀ b ∈ s.client.writePipeline, b ∈ s.client.queue := by
    intro b hb
    rw [hok.client.pipeline] at hb
    exact List.mem_of_mem_take hb
  have hsorted : s.client.writePipeline.Pairwise fun b b' => b.write < b'.write := by
    have hwaiting := hok.books.waitingFor s.client.currentUser
    rw [← hok.client.queue.userId] at hwaiting
    have hqueue := hok.books.sound.sorted.filter fun n =>
      decide ((s.client.books.outbox s.writes s.processStart).keyOf n = some s.client.currentUser)
    rw [show List.filter _ _ = _ from hwaiting, List.pairwise_map] at hqueue
    rw [hok.client.pipeline]
    exact hqueue.sublist (List.take_sublist _ _)
  rw [hpipeline, List.pairwise_cons] at hsorted
  have hlt := hsorted.1 refused hlater
  have hstarted : s.client.writeStream.isStarted = true := by
    simp [WriteStream.isStarted, WriteStream.isOpen, hopened]
  have hstep : s.step (.streamFinish status)
      = some (.ok { s with client := s.client.failed status }) := by
    have hfinish : MayFinish call status := by simp only [MayFinish, hended]
    simp only [step, hcall, if_pos hfinish, FirestoreClient.onStreamFinish,
      FirestoreClient.close_eq hok.client.toPipelineOk hstatus hstarted]
    rfl
  have hsettled : (s.client.failed status).settled = s.client.settled ++ [(batch.write, status)] :=
    congrArg Books.settled (books_failed hpipeline hhandshake hpermanent)
  refine ⟨batch.write, refused.write, _,
    hcallOk.committed response (by simp [hresponses]) _ hfirst, hlt,
    hrefused _ hwrite.symm, hstep, ?_, ?_⟩
  · show (batch.write, status) ∈ (s.client.failed status).settled
    rw [hsettled]
    exact List.mem_append_right _ (List.mem_singleton.2 rfl)
  · intro status' hmem
    rw [show System.client { s with client := s.client.failed status } = s.client.failed status
      from rfl, hsettled] at hmem
    rcases List.mem_append.1 hmem with hmem | hmem
    · have hrow := Persistence.mem_allMutationBatches.1
        (hqueued refused (by rw [hpipeline]; exact List.mem_cons_of_mem _ hlater))
      exact hok.books.sound.not_settled (List.mem_map.2 ⟨_, hrow, rfl⟩)
        (List.mem_map_of_mem (f := Prod.fst) hmem)
    · have heq := (Prod.mk.inj (List.mem_singleton.1 hmem)).1
      omega

/-- A write of one document is refused after one of another has been carried out. -/
def sampleRefused : List Action :=
  [.setData samplePath sampleData, .setData ⟨"User", "uid2"⟩ sampleData,
   .resumeStart 0 (.ok (some "uid1")), .serve (.accept (.response [] (.ok 0))), .streamRead,
   .serve (.accept (.response [1] (.ok 1))), .serve (.refuse ⟨.permissionDenied, ""⟩)]

theorem refusal_charged_to_unread_sampleRefused :
    ∃ s, machine.run (install sampleUser emptyStore) sampleRefused = some (.ok s) ∧
      ∃ write refused t, write ∈ s.backend.committed ∧ write < refused ∧
        (refused, ⟨.permissionDenied, ""⟩) ∈ s.backend.refusals ∧
        s.step (.streamFinish ⟨.permissionDenied, ""⟩) = some (.ok t) ∧
        (write, ⟨.permissionDenied, ""⟩) ∈ t.client.settled ∧
        ∀ status', (refused, status') ∉ t.client.settled := by
  obtain ⟨s, hrun, hs⟩ := exists_ok_run sampleRefused
    (fun s => s.client.writeStream.grpcStream.any fun (call : Call) =>
      decide (s.client.writeStream.handshakeComplete = true ∧
        call.ended = some ⟨.permissionDenied, ""⟩ ∧ call.responses.isEmpty = false)) (by decide)
  cases hcall : s.client.writeStream.grpcStream with
  | none => simp [hcall] at hs
  | some call =>
      rw [hcall, Option.any_some] at hs
      obtain ⟨hhandshake, hended, hresponses⟩ := of_decide_eq_true hs
      obtain ⟨response, responses, hresponses⟩ :=
        List.exists_cons_of_ne_nil (List.isEmpty_eq_false_iff.1 hresponses)
      exact ⟨s, hrun, refusal_charged_to_unread hrun hcall hhandshake hended (by decide) hresponses⟩

end System

end Harusali.Firestore
