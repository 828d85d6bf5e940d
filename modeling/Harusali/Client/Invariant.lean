import Harusali.Client.Ledger

set_option autoImplicit false

/-! # The invariant of the system

`System.Ok` holds of every state a run reaches. Its parts are kept apart: what a step does to the
books (`Entry`), and what it does to the calls. -/

namespace Harusali.Firestore

open WriteLog (userOf)

/-- How a write can have left its queue: carried out, or rejected with a permanent error. The error
    is the service's answer to this write, or the write was carried out all the same and its
    answer was lost or could not be read. -/
def Outcome (backend : Backend) (write : Nat) (status : Status) : Prop :=
  (status = .OK ∧ write ∈ backend.committed) ∨
    (isPermanentWriteError status = true ∧
      ((write, status) ∈ backend.refusals ∨ write ∈ backend.committed))

theorem Outcome.mono {backend backend' : Backend} (hgrows : backend.Grows backend') {write : Nat}
    {status : Status} (h : Outcome backend write status) : Outcome backend' write status := by
  rcases h with ⟨hok, hcommitted⟩ | ⟨hpermanent, hrefused | hcommitted⟩
  · exact Or.inl ⟨hok, hgrows.committed hcommitted⟩
  · exact Or.inr ⟨hpermanent, Or.inl (hgrows.refusals.subset hrefused)⟩
  · exact Or.inr ⟨hpermanent, Or.inr (hgrows.committed hcommitted)⟩

theorem Outcome.dealt {backend : Backend} {write : Nat} {status : Status}
    (h : Outcome backend write status) : backend.Dealt write := by
  rcases h with ⟨-, hcommitted⟩ | ⟨hpermanent, hrefused | hcommitted⟩
  · exact Or.inl hcommitted
  · exact Or.inr ⟨status, hpermanent, hrefused⟩
  · exact Or.inl hcommitted

namespace System

structure Ok (initial : Harusali.Firestore) (s : System) : Prop where
  client : s.client.ClientOk
  start : s.processStart ≤ s.writes.length
  books : BooksOk s.writes s.processStart s.client.books
  backend : BackendOk s.writes initial s.backend
  settled : ∀ p ∈ s.client.settled, Outcome s.backend p.1 p.2
  live : ∀ call, s.client.writeStream.grpcStream = some call → CallOk s.writes s.backend call
  released : ∀ call ∈ s.client.released, CallOk s.writes s.backend call

theorem Ok.filed {initial : Harusali.Firestore} {s : System} (h : s.Ok initial) : s.Filed :=
  h.books.filed

theorem Ok.readable {initial : Harusali.Firestore} {s : System} (h : s.Ok initial) : s.Readable where
  responses call hcall := (h.live call hcall).responses
  ended call hcall status hended := ((h.live call hcall).ended status hended).1

end System

/-! ## What closing the stream does to calls and books -/

namespace FirestoreClient

theorem grpcStream_begun (ws : WriteStream) : ws.begun.grpcStream = ws.grpcStream := by
  cases hstate : ws.state <;> simp [WriteStream.begun, hstate, WriteStream.requestCredentials]

theorem grpcStream_tended (ws : WriteStream) (pipeline : List MutationBatch) :
    (ws.tended pipeline).grpcStream = ws.grpcStream := by
  unfold WriteStream.tended WriteStream.markIdle
  split_ifs
  · rfl
  · rfl
  · exact grpcStream_begun ws

/-- Without a call there is nothing to send on. -/
theorem grpcStream_refill {c : FirestoreClient} (h : c.writeStream.grpcStream = none) :
    c.refill.writeStream.grpcStream = none := by
  simp only [refill, grpcStream_tended]
  split_ifs
  · unfold WriteStream.sent
    split_ifs
    · exact h
    · simp [h]
  · exact h

theorem failed_calls (c : FirestoreClient) {status : Status} (hok : status.ok = false) :
    (c.failed status).writeStream.grpcStream = none ∧
      (c.failed status).released = c.released ++ c.writeStream.grpcStream.toList := by
  have hreleased : (c.letGo status).released = c.released ++ c.writeStream.grpcStream.toList := by
    simp [letGo, WriteStream.released, hok]
  unfold failed reacted
  split
  · exact ⟨rfl, hreleased⟩
  · next batch rest hpipeline =>
      split_ifs
      · refine ⟨grpcStream_refill ?_, ?_⟩
        · rw [(settle_frame _ batch status).2.1]
          rfl
        · rw [← hreleased]
          simp only [refill, settle, notifyUser]
          split <;> rfl
      · exact ⟨grpcStream_begun _, hreleased⟩
      · obtain ⟨-, -, -, token, hstream⟩ := (c.letGo status).forgetToken_frame status
        refine ⟨?_, ?_⟩
        · dsimp only
          rw [grpcStream_begun, hstream]
          rfl
        · rw [← hreleased]
          unfold forgetToken
          split <;> rfl

/-- Settling looks at neither the pipeline nor the stream. -/
theorem books_settle_frame (c : FirestoreClient) (batch : MutationBatch) (status : Status)
    (pipeline : List MutationBatch) (ws : WriteStream) (released : List Call) :
    (settle { c with writePipeline := pipeline, writeStream := ws, released } batch status).books
      = (c.settle batch status).books := by
  unfold settle notifyUser
  dsimp only
  split <;> rfl

theorem failed_books (c : FirestoreClient) (status : Status) :
    (c.failed status).books = c.books ∨
      ∃ batch rest, c.writePipeline = batch :: rest ∧ c.writeStream.handshakeComplete = true ∧
        isPermanentWriteError status = true ∧
        (c.failed status).books = (c.settle batch status).books := by
  unfold failed reacted
  split
  · exact Or.inl rfl
  · next batch rest hpipeline =>
      split_ifs with hhandshake hpermanent
      · exact Or.inr ⟨batch, rest, hpipeline, hhandshake, hpermanent,
          books_settle_frame c batch status _ _ _⟩
      · exact Or.inl rfl
      · refine Or.inl ?_
        unfold forgetToken
        split <;> rfl

theorem stopped_calls {c : FirestoreClient} (h : StreamPre c.writePipeline c.writeStream) :
    c.stopped.writeStream.grpcStream = none ∧ ∀ call ∈ c.stopped.released, call ∈ c.released ∨
      ∃ live, c.writeStream.grpcStream = some live ∧ call = c.writeStream.tearDown live := by
  refine ⟨h.stopped.2.1, fun call hmem => ?_⟩
  rcases List.mem_append.1 hmem with hmem | hmem
  · exact Or.inl hmem
  · split_ifs at hmem
    · obtain ⟨live, hlive, rfl⟩ := Option.map_eq_some_iff.1
        (show c.writeStream.grpcStream.map c.writeStream.tearDown = some call by
          simpa [WriteStream.released, Status.ok, Status.OK] using hmem)
      exact Or.inr ⟨live, hlive, rfl⟩
    · exact absurd hmem (by simp)

end FirestoreClient

namespace System

variable {initial : Harusali.Firestore} {s s' : System} {a : Action}

/-! ## What a step does to the books -/

inductive Entry (s : System) : Action → System → Prop
  | none (a : Action) (s' : System) (hsilent : ∀ path data, a ≠ .setData path data)
      (hboot : ∀ user, a ≠ .restart user) (hwrites : s'.writes = s.writes)
      (hstart : s'.processStart = s.processStart) (hbooks : s'.client.books = s.client.books) :
      Entry s a s'
  | filed (path : DocumentPath) (data : DocumentData) (s' : System)
      (hwrites : s'.writes = s.writes ++ [(s.client.currentUser, toMutations path data)])
      (hstart : s'.processStart = s.processStart)
      (hbooks : s'.client.books
        = (s.client.issue (toMutations path data) ⟨s.writes.length⟩).books) :
      Entry s (.setData path data) s'
  | settled (a : Action) (s' : System) (hsilent : ∀ path data, a ≠ .setData path data)
      (hboot : ∀ user, a ≠ .restart user) (batch : MutationBatch) (rest : List MutationBatch)
      (status : Status) (hqueue : s.client.queue = batch :: rest)
      (houtcome : Outcome s.backend batch.write status) (hwrites : s'.writes = s.writes)
      (hstart : s'.processStart = s.processStart)
      (hbooks : s'.client.books = (s.client.settle batch status).books) : Entry s a s'
  | restarted (user : User) (s' : System) (hwrites : s'.writes = s.writes)
      (hstart : s'.processStart = s.writes.length)
      (hbooks : s'.client.books = { s.client.books with callbacks := fun _ _ => .none }) :
      Entry s (.restart user) s'

/-- The first write of the pipeline is the first of the queue. -/
theorem queue_of_pipeline (h : s.client.ClientOk) {batch : MutationBatch}
    {rest : List MutationBatch} (hpipeline : s.client.writePipeline = batch :: rest) :
    ∃ others, s.client.queue = batch :: others := by
  have htake := h.pipeline.symm.trans hpipeline
  cases hqueue : s.client.queue with
  | nil =>
      rw [hqueue] at htake
      exact absurd htake (by simp)
  | cons first others =>
      rw [hqueue, kMaxPendingWrites, List.take_succ_cons] at htake
      exact ⟨others, by rw [(List.cons.inj htake).1]⟩

/-- What ends a call with an error is the answer to the first write of the pipeline, or the answer
    to that write is among those that were not read. -/
theorem outcome_of_finish (h : s.Ok initial) {call : Call}
    (hcall : s.client.writeStream.grpcStream = some call)
    (hhandshake : s.client.writeStream.handshakeComplete = true) {batch : MutationBatch}
    {rest : List MutationBatch} (hpipeline : s.client.writePipeline = batch :: rest)
    {status : Status} (hfinish : MayFinish call status)
    (hpermanent : isPermanentWriteError status = true) : Outcome s.backend batch.write status := by
  have hcallOk := h.live call hcall
  obtain ⟨-, hcarries⟩ := h.client.stream.call call hcall
  rw [if_pos hhandshake, Call.Carries, hpipeline] at hcarries
  unfold MayFinish at hfinish
  split at hfinish
  · next ended hended =>
      obtain ⟨-, request, requests, hrequests, hrefused⟩ := hcallOk.ended ended hended
      refine Or.inr ⟨hpermanent, ?_⟩
      cases hresponses : call.responses with
      | nil =>
          rw [hresponses, hrequests, List.map_nil, List.nil_append] at hcarries
          have hwrite : request.write? = some batch.write := (List.cons.inj hcarries).1
          rw [hfinish]
          exact Or.inl (hrefused batch.write hwrite)
      | cons response responses =>
          rw [hresponses] at hcarries
          have hwrite : response.write = some batch.write := (List.cons.inj hcarries).1
          exact Or.inr (hcallOk.committed response (by simp [hresponses]) batch.write hwrite)
  · rw [hfinish.2] at hpermanent
    exact absurd hpermanent (by simp)

theorem entry_of_effect (h : s.Ok initial) (heffect : Effect s a s') : Entry s a s' := by
  cases heffect with
  | issued path data => exact .filed path data _ rfl rfl rfl
  | switched user => exact .none _ _ (by simp) (by simp) rfl rfl rfl
  | stale n maybeToken hstale => exact .none _ _ (by simp) (by simp) rfl rfl rfl
  | tokenFailed status hok hmem =>
      have hstate := FirestoreClient.starting_of_mem h.client hmem
      obtain ⟨-, hnot, -⟩ := h.client.stream.not_open (by simp [hstate])
      rcases (s.client.answered _).failed_books status with hbooks | ⟨-, -, -, hhandshake, -⟩
      · exact .none _ _ (by simp) (by simp) rfl rfl hbooks
      · exact absurd (hnot.symm.trans hhandshake) (by simp)
  | opened token hmem => exact .none _ _ (by simp) (by simp) rfl rfl rfl
  | greeted call response responses hcall hhandshake streamToken =>
      exact .none _ _ (by simp) (by simp) rfl rfl rfl
  | acknowledged call response responses hcall hhandshake batch rest hpipeline hwrite hcarries
      streamToken =>
      obtain ⟨others, hqueue⟩ := queue_of_pipeline h.client hpipeline
      have hcommitted := (h.live _ hcall).committed response (List.mem_cons_self ..) _ hwrite
      refine .settled _ _ (by simp) (by simp) batch others .OK hqueue (Or.inl ⟨rfl, hcommitted⟩) rfl
        rfl ?_
      simp only [FirestoreClient.acknowledged, FirestoreClient.settle, FirestoreClient.notifyUser,
        FirestoreClient.refill, FirestoreClient.books, FirestoreClient.setLastStreamToken,
        FirestoreClient.withToken, FirestoreClient.withCall, Persistence.without,
        Persistence.setLastStreamToken]
      split <;> rfl
  | unread call response responses hcall status hok hfailure streamToken =>
      rcases ((s.client.withCall { call with responses }).withToken streamToken).failed_books status
        with hbooks | ⟨batch, rest, hpipeline, hhandshake, hpermanent, hbooks⟩
      · exact .none _ _ (by simp) (by simp) rfl rfl hbooks
      · obtain ⟨others, hqueue⟩ := queue_of_pipeline h.client hpipeline
        obtain ⟨first, _, hfirst, hwrite, -⟩ :=
          FirestoreClient.first_of_carries h.client hcall hhandshake
        obtain rfl : first = batch := (List.cons.inj (hfirst.symm.trans hpipeline)).1
        have hcommitted := (h.live _ hcall).committed response (List.mem_cons_self ..) _ hwrite
        refine .settled _ _ (by simp) (by simp) first others status hqueue
          (Or.inr ⟨hpermanent, Or.inr hcommitted⟩) rfl rfl (hbooks.trans ?_)
        exact FirestoreClient.books_settle_frame s.client first status _ _ _
  | finished call hcall status hok hfinish =>
      rcases s.client.failed_books status
        with hbooks | ⟨batch, rest, hpipeline, hhandshake, hpermanent, hbooks⟩
      · exact .none _ _ (by simp) (by simp) rfl rfl hbooks
      · obtain ⟨others, hqueue⟩ := queue_of_pipeline h.client hpipeline
        exact .settled _ _ (by simp) (by simp) batch others status hqueue
          (outcome_of_finish h hcall hhandshake hpipeline hfinish hpermanent) rfl rfl hbooks
  | backoffElapsed hstate => exact .none _ _ (by simp) (by simp) rfl rfl rfl
  | idle hidle => exact .none _ _ (by simp) (by simp) rfl rfl rfl
  | served call hcall answer backend call' hserve => exact .none _ _ (by simp) (by simp) rfl rfl rfl
  | servedReleased i call hcall answer backend call' hserve =>
      exact .none _ _ (by simp) (by simp) rfl rfl rfl
  | booted user => exact .restarted user _ rfl rfl rfl

theorem writes_of_entry (hentry : Entry s a s') : s.writes <+: s'.writes := by
  cases hentry with
  | none _ _ _ _ hwrites => exact hwrites ▸ List.prefix_refl _
  | filed path data s' hwrites =>
      rw [hwrites]
      exact List.prefix_append _ _
  | settled _ _ _ _ _ _ _ _ _ hwrites => exact hwrites ▸ List.prefix_refl _
  | restarted user s' hwrites => exact hwrites ▸ List.prefix_refl _

theorem books_of_entry (h : s.Ok initial) (hentry : Entry s a s') :
    s'.processStart ≤ s'.writes.length ∧ BooksOk s'.writes s'.processStart s'.client.books := by
  cases hentry with
  | none _ _ _ _ hwrites hstart hbooks =>
      rw [hwrites, hstart, hbooks]
      exact ⟨h.start, h.books⟩
  | filed path data s' hwrites hstart hbooks =>
      rw [hwrites, hstart, hbooks]
      refine ⟨?_, h.books.issue h.client.queue h.start _⟩
      rw [List.length_append]
      exact Nat.le_add_right_of_le h.start
  | settled _ _ _ _ batch rest status hqueue _ hwrites hstart hbooks =>
      rw [hwrites, hstart, hbooks]
      exact ⟨h.start, h.books.settle h.client.queue hqueue status⟩
  | restarted user s' hwrites hstart hbooks =>
      rw [hwrites, hstart, hbooks]
      exact ⟨Nat.le_refl _, h.books.restart⟩

theorem settled_of_entry (h : s.Ok initial) (hentry : Entry s a s') :
    ∀ p ∈ s'.client.settled, Outcome s.backend p.1 p.2 := by
  have hsame : s'.client.books.settled = s'.client.settled := rfl
  rw [← hsame]
  cases hentry with
  | none _ _ _ _ _ _ hbooks =>
      rw [hbooks]
      exact h.settled
  | filed path data s' _ _ hbooks =>
      rw [hbooks]
      exact h.settled
  | settled _ _ _ _ batch rest status _ houtcome _ _ hbooks =>
      rw [hbooks]
      intro p hp
      rcases List.mem_append.1 hp with hp | hp
      · exact h.settled p hp
      · rw [List.mem_singleton.1 hp]
        exact houtcome
  | restarted user s' _ _ hbooks =>
      rw [hbooks]
      exact h.settled

/-! ## What a step does to the calls -/

section Turn

variable {c : FirestoreClient} {writes : WriteLog} {processStart : Nat} {backend : Backend}

/-- An earlier write of the user of a queued write is queued before it or has been settled. -/
theorem queued_before (hbooks : BooksOk writes processStart c.books) (hqueue : c.QueueOk)
    {front back : List MutationBatch} {batch : MutationBatch}
    (hsplit : c.queue = front ++ batch :: back) {earlier : Nat} (hlt : earlier < batch.write)
    (huser : userOf writes earlier = userOf writes batch.write) :
    earlier ∈ front.map (·.write) ∨ earlier ∈ c.settled.map Prod.fst := by
  have hmem : batch ∈ c.queue := by simp [hsplit]
  have howner : userOf writes batch.write = some c.currentUser :=
    (hbooks.user_of_row (Persistence.mem_allMutationBatches.1 hmem) c.currentUser).2 hqueue.userId
  have hwaiting := hbooks.waitingFor c.currentUser
  rw [← hqueue.userId, show c.persistence.allMutationBatches c.mutationQueue.userId
    = front ++ batch :: back from hsplit, List.map_append, List.map_cons] at hwaiting
  by_cases hsettled : earlier ∈ c.settled.map Prod.fst
  · exact Or.inr hsettled
  · exact Or.inl (hbooks.sound.mem_front hwaiting hlt (huser.trans howner) hsettled)

/-- Batches that follow `done` in the queue can be sent on a call where all of `done` is requested
    or dealt with. -/
theorem callOk_sent (hbooks : BooksOk writes processStart c.books) (hqueue : c.QueueOk)
    (hsettled : ∀ p ∈ c.settled, Outcome backend p.1 p.2) {call : Call}
    (hcall : CallOk writes backend call) (ws : WriteStream) {done new later : List MutationBatch}
    (hsplit : c.queue = done ++ (new ++ later))
    (hdone : ∀ batch ∈ done, batch.write ∈ call.requested ∨ backend.Dealt batch.write) :
    CallOk writes backend { call with requests := call.requests ++ new.map ws.request } := by
  refine hcall.append ?_ ?_
  · intro mutations streamToken write hmem
    obtain ⟨batch, hbatch, hrequest⟩ := List.mem_map.1 hmem
    obtain ⟨rfl, -, rfl⟩ := Request.writeMutations.inj hrequest
    have hqueued : batch ∈ c.queue := by simp [hsplit, hbatch]
    obtain ⟨user, hmade, -⟩ := hbooks.filed _ (Persistence.mem_allMutationBatches.1 hqueued)
    exact ⟨user, hmade⟩
  · intro front request back write hmore hwrite earlier hlt huser
    obtain ⟨front', rest, rfl, rfl, hrest⟩ := List.map_eq_append_iff.1 hmore
    obtain ⟨batch, back', rfl, rfl, -⟩ := List.map_eq_cons_iff.1 hrest
    obtain rfl : batch.write = write := Option.some.inj hwrite
    have hqueued : c.queue = (done ++ front') ++ batch :: (back' ++ later) := by simp [hsplit]
    have hbefore := queued_before hbooks hqueue hqueued hlt huser
    rw [List.map_append, List.mem_append] at hbefore
    rcases hbefore with (hmem | hmem) | hmem
    · obtain ⟨batch', hbatch', rfl⟩ := List.mem_map.1 hmem
      exact (hdone batch' hbatch').imp_right Or.inr
    · obtain ⟨batch', hbatch', rfl⟩ := List.mem_map.1 hmem
      exact Or.inr (Or.inl (List.mem_filterMap.2
        ⟨ws.request batch', List.mem_map_of_mem hbatch', rfl⟩))
    · obtain ⟨p, hp, rfl⟩ := List.mem_map.1 hmem
      exact Or.inr (Or.inr (hsettled p hp).dealt)

/-- What a call carries is requested or has been carried out. -/
theorem requested_or_dealt {call : Call} {pipeline : List MutationBatch}
    (hcall : CallOk writes backend call) (hcarries : call.Carries pipeline) :
    ∀ batch ∈ pipeline, batch.write ∈ call.requested ∨ backend.Dealt batch.write := by
  intro batch hbatch
  have hmem : some batch.write ∈ call.responses.map (·.write) ++ call.requests.map Request.write? := by
    rw [hcarries]
    exact List.mem_map_of_mem (f := fun batch => some batch.write) hbatch
  rcases List.mem_append.1 hmem with hmem | hmem
  · obtain ⟨response, hresponse, hwrite⟩ := List.mem_map.1 hmem
    exact Or.inr (Or.inl (hcall.committed response hresponse _ hwrite))
  · obtain ⟨request, hrequest, hwrite⟩ := List.mem_map.1 hmem
    exact Or.inl (List.mem_filterMap.2 ⟨request, hrequest, hwrite⟩)

/-- Filling the pipeline keeps the call in turn. -/
theorem callOk_refill (hbooks : BooksOk writes processStart c.books) (hfillable : c.Fillable)
    (hsettled : ∀ p ∈ c.settled, Outcome backend p.1 p.2)
    (hlive : ∀ call, c.writeStream.grpcStream = some call → CallOk writes backend call) :
    ∀ call, c.refill.writeStream.grpcStream = some call → CallOk writes backend call := by
  intro call hcall
  simp only [FirestoreClient.refill, FirestoreClient.grpcStream_tended] at hcall
  split_ifs at hcall with hready
  · obtain ⟨hopen, hhandshake⟩ := Bool.and_eq_true_iff.1 hready
    have hopened : c.writeStream.state = .opened := by simpa [WriteStream.isOpen] using hopen
    obtain ⟨old, hold⟩ := hfillable.stream.opened hopened
    have hcarries := (hfillable.stream.call old hold).2
    rw [if_pos hhandshake] at hcarries
    obtain ⟨n, hn, hpipeline⟩ := hfillable.pipeline
    obtain ⟨new, hnew⟩ : c.writePipeline <+: c.queue.take kMaxPendingWrites := by
      rw [hpipeline]
      exact List.take_prefix_take_left hn
    have hsplit : c.queue = c.writePipeline ++ (new ++ c.queue.drop kMaxPendingWrites) := by
      rw [← List.append_assoc, hnew, List.take_append_drop]
    rw [← hnew, List.drop_left, WriteStream.sent] at hcall
    split_ifs at hcall with hnil
    · exact hlive call hcall
    · simp only [hold, Option.map_some, Option.some.injEq] at hcall
      subst hcall
      exact callOk_sent hbooks hfillable.queue hsettled (hlive old hold) c.writeStream hsplit
        (requested_or_dealt (hlive old hold) hcarries)
  · exact hlive call hcall

end Turn

theorem backend_of_effect (h : s.Ok initial) (heffect : Effect s a s') :
    s.backend.Grows s'.backend ∧ BackendOk s.writes initial s'.backend := by
  cases heffect with
  | served call hcall answer backend call' hserve =>
      exact ⟨grows_serve hserve, h.backend.serve (h.live call hcall) hserve⟩
  | servedReleased i call hcall answer backend call' hserve =>
      exact ⟨grows_serve hserve,
        h.backend.serve (h.released call (List.mem_of_getElem? hcall)) hserve⟩
  | issued | switched | stale | tokenFailed | opened | greeted | acknowledged | unread | finished
  | backoffElapsed | idle | booted => exact ⟨.refl _, h.backend⟩

/-- A call that is let go of stays as it is. -/
theorem released_of_failed (h : s.Ok initial) {c : FirestoreClient} {status : Status}
    (hok : status.ok = false) (hreleased : c.released = s.client.released)
    (hcall : ∀ call, c.writeStream.grpcStream = some call → CallOk s.writes s.backend call) :
    ∀ call ∈ (c.failed status).released, CallOk s.writes s.backend call := by
  intro call hmem
  rw [(c.failed_calls hok).2, hreleased] at hmem
  rcases List.mem_append.1 hmem with hmem | hmem
  · exact h.released call hmem
  · exact hcall call (Option.mem_toList.1 hmem)

/-- A call that is ended gracefully gets one more request, for no write. -/
theorem released_of_stopped (h : s.Ok initial) {c : FirestoreClient}
    (hreleased : c.released = s.client.released) (hstream : c.writeStream = s.client.writeStream)
    (hpre : StreamPre c.writePipeline c.writeStream) :
    ∀ call ∈ c.stopped.released, CallOk s.writes s.backend call := by
  intro call hmem
  rcases (FirestoreClient.stopped_calls hpre).2 call hmem with hmem | ⟨live, hlive, rfl⟩
  · exact h.released call (hreleased ▸ hmem)
  · exact (h.live live (hstream ▸ hlive)).tearDown c.writeStream

theorem released_of_effect (h : s.Ok initial) (heffect : Effect s a s') :
    ∀ call ∈ s'.client.released, CallOk s'.writes s'.backend call := by
  have hgrows := (backend_of_effect h heffect).1
  cases heffect with
  | issued path data =>
      exact fun call hmem => (h.released call hmem).mono (List.prefix_append _ _) hgrows
  | switched user =>
      exact released_of_stopped (c := s.client.withUser user) h rfl rfl h.client.stream.toStreamPre
  | stale n maybeToken hstale => exact h.released
  | tokenFailed status hok hmem => exact released_of_failed h hok rfl h.live
  | opened token hmem => exact h.released
  | greeted call response responses hcall hhandshake streamToken => exact h.released
  | acknowledged call response responses hcall hhandshake batch rest hpipeline hwrite hcarries
      streamToken =>
      intro call' hmem
      refine h.released call' ?_
      simp only [FirestoreClient.refill, FirestoreClient.acknowledged, FirestoreClient.settle,
        FirestoreClient.notifyUser] at hmem
      split at hmem <;> exact hmem
  | unread call response responses hcall status hok hfailure streamToken =>
      refine released_of_failed
        (c := (s.client.withCall { call with responses }).withToken streamToken) h hok rfl ?_
      intro call' hcall'
      obtain rfl : _ = call' := Option.some.inj hcall'
      exact (h.live _ hcall).read
  | finished call hcall status hok hfinish => exact released_of_failed h hok rfl h.live
  | backoffElapsed hstate => exact h.released
  | idle hidle => exact released_of_stopped h rfl rfl h.client.stream.toStreamPre
  | served call hcall answer backend call' hserve =>
      exact fun call'' hmem => (h.released call'' hmem).mono (List.prefix_refl _) hgrows
  | servedReleased i call hcall answer backend call' hserve =>
      intro call'' hmem
      rcases List.mem_or_eq_of_mem_set hmem with hmem | rfl
      · exact (h.released call'' hmem).mono (List.prefix_refl _) hgrows
      · exact (h.released call (List.mem_of_getElem? hcall)).serve hserve
  | booted user =>
      intro call hmem
      rcases List.mem_append.1 hmem with hmem | hmem
      · exact h.released call hmem
      · exact h.live call (Option.mem_toList.1 hmem)

/-- After the handshake the whole pipeline is sent, in the order of the queue. -/
theorem live_of_greeted (h : s.Ok initial) {call : Call} {response : Response}
    {responses : List Response}
    (hcall : s.client.writeStream.grpcStream = some { call with responses := response :: responses })
    (hhandshake : s.client.writeStream.handshakeComplete = false) (streamToken : ByteString) :
    ∀ call', ((s.client.withCall { call with responses }).greeted streamToken).writeStream.grpcStream
      = some call' → CallOk s.writes s.backend call' := by
  intro call' hcall'
  obtain ⟨-, hgreets⟩ := h.client.stream.call _ hcall
  rw [hhandshake, if_neg (by simp)] at hgreets
  rw [FirestoreClient.greeted, WriteStream.sent] at hcall'
  dsimp only at hcall'
  rw [if_neg (show (s.client.withCall { call with responses }).writePipeline ≠ [] from hgreets.1)]
    at hcall'
  obtain rfl : _ = call' := Option.some.inj hcall'
  have hsplit : s.client.queue
      = [] ++ (s.client.writePipeline ++ s.client.queue.drop kMaxPendingWrites) := by
    rw [h.client.pipeline, List.nil_append, List.take_append_drop]
  exact callOk_sent h.books h.client.queue h.settled (h.live _ hcall).read _ hsplit (by simp)

theorem live_of_acknowledged (h : s.Ok initial) {call : Call} {response : Response}
    {responses : List Response}
    (hcall : s.client.writeStream.grpcStream = some { call with responses := response :: responses })
    (hhandshake : s.client.writeStream.handshakeComplete = true) {batch : MutationBatch}
    {rest : List MutationBatch} (hpipeline : s.client.writePipeline = batch :: rest)
    (hcarries : Call.Carries { call with responses } rest) {streamToken : ByteString}
    (hbooks : BooksOk s.writes s.processStart
      ((s.client.withCall { call with responses }).acknowledged streamToken batch rest).books)
    (hsettled : ∀ p ∈ ((s.client.withCall { call with responses }).acknowledged streamToken batch
      rest).settled, Outcome s.backend p.1 p.2) :
    ∀ call', ((s.client.withCall { call with responses }).acknowledged streamToken batch
      rest).refill.writeStream.grpcStream = some call' → CallOk s.writes s.backend call' := by
  refine callOk_refill hbooks
    (FirestoreClient.fillable_acknowledged h.client hcall hhandshake hpipeline hcarries) hsettled ?_
  intro call' hcall'
  rw [FirestoreClient.acknowledged, (FirestoreClient.settle_frame _ batch .OK).2.1] at hcall'
  obtain rfl : _ = call' := Option.some.inj hcall'
  exact (h.live _ hcall).read

theorem live_of_effect (h : s.Ok initial) (heffect : Effect s a s')
    (hbooks : BooksOk s'.writes s'.processStart s'.client.books)
    (hsettled : ∀ p ∈ s'.client.settled, Outcome s'.backend p.1 p.2) :
    ∀ call, s'.client.writeStream.grpcStream = some call → CallOk s'.writes s'.backend call := by
  have hnone : ∀ {c : FirestoreClient} {writes : WriteLog} {backend : Backend},
      c.writeStream.grpcStream = none → ∀ call, c.writeStream.grpcStream = some call →
        CallOk writes backend call :=
    fun hnone call hcall => absurd (hnone.symm.trans hcall) (by simp)
  cases heffect with
  | issued path data =>
      refine callOk_refill hbooks (FirestoreClient.fillable_issue h.client _ _) hsettled ?_
      exact fun call hcall => (h.live call hcall).mono (List.prefix_append _ _) (.refl _)
  | switched user =>
      exact hnone (FirestoreClient.grpcStream_refill h.client.stream.stopped.2.1)
  | stale n maybeToken hstale => exact h.live
  | tokenFailed status hok hmem => exact hnone (FirestoreClient.failed_calls _ hok).1
  | opened token hmem =>
      intro call hcall
      obtain rfl : _ = call := Option.some.inj hcall
      exact callOk_start _ _ token
  | greeted call response responses hcall hhandshake streamToken =>
      exact live_of_greeted h hcall hhandshake streamToken
  | acknowledged call response responses hcall hhandshake batch rest hpipeline hwrite hcarries
      streamToken =>
      exact live_of_acknowledged h hcall hhandshake hpipeline hcarries hbooks hsettled
  | unread call response responses hcall status hok hfailure streamToken =>
      exact hnone (FirestoreClient.failed_calls _ hok).1
  | finished call hcall status hok hfinish => exact hnone (FirestoreClient.failed_calls _ hok).1
  | backoffElapsed hstate =>
      intro call hcall
      rw [FirestoreClient.grpcStream_begun] at hcall
      exact h.live call hcall
  | idle hidle => exact hnone h.client.stream.stopped.2.1
  | served call hcall answer backend call' hserve =>
      intro call'' hcall''
      obtain rfl : call' = call'' := Option.some.inj hcall''
      exact (h.live call hcall).serve hserve
  | servedReleased i call hcall answer backend call' hserve =>
      exact fun call'' hcall'' =>
        (h.live call'' hcall'').mono (List.prefix_refl _) (grows_serve hserve)
  | booted user => exact hnone (FirestoreClient.grpcStream_refill rfl)

/-! ## Every step keeps the invariant -/

theorem clientOk_stopped {c : FirestoreClient} (h : c.ClientOk)
    (hidle : c.writeStream.idlenessTimer = true) : c.stopped.ClientOk := by
  obtain ⟨hstate, hcall, hhandshake, hnotIdle, htokens⟩ := h.stream.stopped
  have hnil := (h.stream.idle hidle).2
  have hclosed : ∀ state : Stream.State, state ≠ .initial → state ≠ .error →
      c.stopped.writeStream.state ≠ state := by
    rintro state hinitial herror rfl
    exact hstate.elim hinitial herror
  refine ⟨⟨⟨h.queue.ordered, h.queue.positive, h.queue.below, h.queue.userId⟩, h.enabled,
    h.pipeline⟩, ?_⟩
  refine {
    toStreamPre := streamPre_of_not_open (hclosed _ (by simp) (by simp)) hcall hhandshake hnotIdle ?_
      htokens
    started := fun hne => absurd hnil hne }
  rintro (hstarting | hbackoff)
  · exact absurd hstarting (hclosed _ (by simp) (by simp))
  · exact absurd hbackoff (hclosed _ (by simp) (by simp))

theorem clientOk_served {c : FirestoreClient} (h : c.ClientOk) {call call' : Call}
    (hcall : c.writeStream.grpcStream = some call) {backend backend' : Backend} {answer : Answer}
    (hserve : backend.serve call answer = some (backend', call')) : (c.withCall call').ClientOk := by
  obtain ⟨hopened, hfits⟩ := h.stream.call call hcall
  have hpipeline := FirestoreClient.pipelineOk_withCall h.toPipelineOk call'
  refine ⟨hpipeline, {
    idle := h.stream.idle
    handshake := h.stream.handshake
    waiting := h.stream.waiting
    tokens := ⟨h.stream.tokens.current, h.stream.tokens.old⟩
    opened := fun _ => ⟨call', rfl⟩
    call := ?_
    started := h.stream.started }⟩
  intro call'' hcall''
  obtain rfl : call' = call'' := Option.some.inj hcall''
  refine ⟨hopened, ?_⟩
  show if c.writeStream.handshakeComplete = true then call'.Carries c.writePipeline
    else c.writePipeline ≠ [] ∧ call'.Greets
  split_ifs at hfits ⊢
  · exact carries_serve hfits hserve
  · exact ⟨hfits.1, greets_serve hfits.2 hserve⟩

theorem client_of_effect (h : s.Ok initial) (heffect : Effect s a s') : s'.client.ClientOk := by
  cases heffect with
  | issued path data => exact (FirestoreClient.fillable_issue h.client _ _).ok
  | switched user => exact (FirestoreClient.fillable_switched h.client user).ok
  | stale n maybeToken hstale => exact FirestoreClient.clientOk_stale h.client hstale
  | tokenFailed status hok hmem =>
      exact FirestoreClient.clientOk_failed
        (FirestoreClient.pipelineOk_answered h.client.toPipelineOk _)
        (FirestoreClient.old_answered h.client _) hok
  | opened token hmem => exact FirestoreClient.clientOk_opened h.client hmem token
  | greeted call response responses hcall hhandshake streamToken =>
      exact FirestoreClient.clientOk_greeted h.client hcall hhandshake
  | acknowledged call response responses hcall hhandshake batch rest hpipeline hwrite hcarries
      streamToken =>
      exact (FirestoreClient.fillable_acknowledged h.client hcall hhandshake hpipeline hcarries).ok
  | unread call response responses hcall status hok hfailure streamToken =>
      exact FirestoreClient.clientOk_failed
        (FirestoreClient.pipelineOk_withToken
          (FirestoreClient.pipelineOk_withCall h.client.toPipelineOk _) streamToken)
        h.client.stream.tokens.old hok
  | finished call hcall status hok hfinish =>
      exact FirestoreClient.clientOk_failed h.client.toPipelineOk h.client.stream.tokens.old hok
  | backoffElapsed hstate => exact FirestoreClient.clientOk_backoffElapsed h.client hstate
  | idle hidle => exact clientOk_stopped h.client hidle
  | served call hcall answer backend call' hserve => exact clientOk_served h.client hcall hserve
  | servedReleased i call hcall answer backend call' hserve =>
      exact ⟨⟨⟨h.client.queue.ordered, h.client.queue.positive, h.client.queue.below,
        h.client.queue.userId⟩, h.client.enabled, h.client.pipeline⟩, h.client.stream⟩
  | booted user => exact (FirestoreClient.fillable_booted h.client.queue.ordered user _ _ _).ok

theorem ok_of_effect (h : s.Ok initial) (heffect : Effect s a s') : s'.Ok initial := by
  have hentry := entry_of_effect h heffect
  obtain ⟨hgrows, hbackend⟩ := backend_of_effect h heffect
  obtain ⟨hstart, hbooks⟩ := books_of_entry h hentry
  have hsettled : ∀ p ∈ s'.client.settled, Outcome s'.backend p.1 p.2 :=
    fun p hp => (settled_of_entry h hentry p hp).mono hgrows
  exact {
    client := client_of_effect h heffect
    start := hstart
    books := hbooks
    backend := hbackend.mono (writes_of_entry hentry)
    settled := hsettled
    live := live_of_effect h heffect hbooks hsettled
    released := released_of_effect h heffect }

/-- **No step fails an assertion, and every step keeps the invariant.** -/
theorem ok_of_step (h : s.Ok initial) {r : Except String System} (hstep : s.step a = some r) :
    ∃ s', r = .ok s' ∧ Effect s a s' ∧ s'.Ok initial := by
  obtain ⟨s', hr, heffect⟩ := effect_of_step h.client h.filed h.readable hstep
  exact ⟨s', hr, heffect, ok_of_effect h heffect⟩

end System

end Harusali.Firestore
