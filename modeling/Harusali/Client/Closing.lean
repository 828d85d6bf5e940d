import Harusali.Client.StreamOk

set_option autoImplicit false

/-! # Settling a write and closing the stream

The two things that happen to the client from outside: a write leaves its queue (`settle`), and
the stream is closed, gracefully (`stopped`) or with an error (`failed`). Where the pipeline is in
order neither fails an assertion. -/

namespace Harusali.Firestore

/-- The stream after a graceful stop. -/
def WriteStream.stopped (ws : WriteStream) : WriteStream :=
  if ws.isStarted then { ws.closed .OK with handshakeComplete := false } else ws

/-- A stopped stream is not open. -/
theorem StreamPre.stopped {pipeline : List MutationBatch} {ws : WriteStream}
    (h : StreamPre pipeline ws) :
    (ws.stopped.state = .initial ∨ ws.stopped.state = .error) ∧ ws.stopped.grpcStream = none ∧
      ws.stopped.handshakeComplete = false ∧ ws.stopped.idlenessTimer = false ∧
      TokensOk ws.stopped := by
  cases hstarted : ws.isStarted with
  | true =>
      rw [WriteStream.stopped, if_pos hstarted]
      refine ⟨Or.inl rfl, rfl, rfl, rfl, tokensOk_of_closed h.tokens.old rfl rfl ?_⟩
      show Stream.State.initial ≠ .starting
      simp
  | false =>
      rw [WriteStream.stopped, if_neg (by simp [hstarted])]
      have hstate : ws.state = .initial ∨ ws.state = .error := by
        cases hstate : ws.state <;> simp_all [WriteStream.isStarted, WriteStream.isOpen]
      obtain ⟨hcall, hhandshake, hidle⟩ := h.not_open (by rcases hstate with h | h <;> simp [h])
      exact ⟨hstate, hcall, hhandshake, hidle, h.tokens⟩

namespace FirestoreClient

/-! ## Settling the first write of the queue -/

/-- The client after this batch has left its queue and the user has been told. -/
def settle (c : FirestoreClient) (batch : MutationBatch) (status : Status) : FirestoreClient :=
  { c.notifyUser batch.batchId status with
    persistence := c.persistence.without c.mutationQueue.userId batch
    settled := c.settled ++ [(batch.write, status)] }

theorem queue_settle {c : FirestoreClient} (h : c.QueueOk) {batch : MutationBatch}
    {rest : List MutationBatch} (hqueue : c.queue = batch :: rest) (status : Status) :
    (c.settle batch status).queue = rest := by
  unfold settle notifyUser
  split <;> exact h.ordered.allMutationBatches_without hqueue

theorem QueueOk.settle {c : FirestoreClient} (h : c.QueueOk) (batch : MutationBatch)
    (status : Status) : (c.settle batch status).QueueOk := by
  have hordered := h.ordered.without c.mutationQueue.userId batch
  have hbelow : ∀ row ∈ (c.persistence.without c.mutationQueue.userId batch).mutation,
      row.2.batchId < c.mutationQueue.nextBatchId :=
    fun row hrow => h.below row (List.mem_of_mem_filter hrow)
  unfold FirestoreClient.settle notifyUser
  split
  · exact ⟨hordered, h.positive, hbelow, h.userId⟩
  · exact ⟨hordered, h.positive, hbelow, h.userId⟩

theorem QueueOk.setLastStreamToken {c : FirestoreClient} (h : c.QueueOk) (token : ByteString) :
    (c.setLastStreamToken token).QueueOk :=
  ⟨h.ordered.setLastStreamToken _ _, h.positive, h.below, h.userId⟩

theorem handleSuccessfulWrite_eq {c : FirestoreClient} (h : c.QueueOk) {batch : MutationBatch}
    (hmem : batch ∈ c.queue) (token : ByteString) :
    c.handleSuccessfulWrite batch token = .ok ((c.setLastStreamToken token).settle batch .OK) := by
  have hremove : (c.persistence.setLastStreamToken c.mutationQueue.userId token).removeMutationBatch
      c.mutationQueue.userId batch
        = .ok ((c.persistence.setLastStreamToken c.mutationQueue.userId token).without
          c.mutationQueue.userId batch) :=
    (h.ordered.setLastStreamToken _ _).removeMutationBatch hmem
  unfold handleSuccessfulWrite acknowledgeBatch settle notifyUser FirestoreClient.setLastStreamToken
  dsimp only
  cases hcallback : c.mutationCallbacks c.currentUser batch.batchId with
  | none => simp only [hremove, bind, Except.bind, pure, Except.pure]
  | some callback => simp only [hremove, bind, Except.bind, pure, Except.pure]

theorem handleRejectedWrite_eq {c : FirestoreClient} (h : c.QueueOk) {batch : MutationBatch}
    (hmem : batch ∈ c.queue) (status : Status) :
    c.handleRejectedWrite batch.batchId status = .ok (c.settle batch status) := by
  unfold handleRejectedWrite rejectBatch settle notifyUser
  rw [h.ordered.lookupMutationBatch hmem]
  simp only [h.ordered.removeMutationBatch hmem, bind, Except.bind, pure, Except.pure]
  cases c.mutationCallbacks c.currentUser batch.batchId <;> rfl

/-- Settling a write touches neither the pipeline nor the stream. -/
theorem settle_frame (c : FirestoreClient) (batch : MutationBatch) (status : Status) :
    (c.settle batch status).writePipeline = c.writePipeline ∧
      (c.settle batch status).writeStream = c.writeStream ∧
      (c.settle batch status).isNetworkEnabled = c.isNetworkEnabled := by
  unfold settle notifyUser
  split <;> exact ⟨rfl, rfl, rfl⟩

/-- The pipeline without the write that is settled is a front part of the queue without it. -/
theorem pipeline_settle {c : FirestoreClient} (hqueue : c.QueueOk) {batch : MutationBatch}
    (hpipeline : batch :: c.writePipeline = c.queue.take kMaxPendingWrites) (status : Status) :
    (c.settle batch status).writePipeline = (c.settle batch status).queue.take 9 := by
  cases hc : c.queue with
  | nil =>
      rw [hc] at hpipeline
      exact absurd hpipeline (by simp)
  | cons first others =>
      rw [hc, kMaxPendingWrites, List.take_succ_cons] at hpipeline
      obtain ⟨rfl, hrest⟩ := List.cons.inj hpipeline
      rw [queue_settle hqueue hc, (c.settle_frame batch status).1, hrest]

theorem fill_settle {c : FirestoreClient} (hqueue : c.QueueOk)
    (henabled : c.isNetworkEnabled = true) {batch : MutationBatch}
    (hpipeline : batch :: c.writePipeline = c.queue.take kMaxPendingWrites) (status : Status) :
    (c.settle batch status).fillWritePipeline = .ok (c.settle batch status).refill := by
  obtain ⟨-, -, hframe⟩ := c.settle_frame batch status
  exact fillWritePipeline_eq (hqueue.settle batch status).ordered (hframe.trans henabled)
    (by decide) (pipeline_settle hqueue hpipeline status)

theorem fillable_settle {c : FirestoreClient} (hqueue : c.QueueOk)
    (henabled : c.isNetworkEnabled = true) {batch : MutationBatch}
    (hpipeline : batch :: c.writePipeline = c.queue.take kMaxPendingWrites) (status : Status)
    (hstream : StreamPre c.writePipeline c.writeStream) : (c.settle batch status).Fillable := by
  obtain ⟨hframePipeline, hframeStream, hframeEnabled⟩ := c.settle_frame batch status
  refine ⟨hqueue.settle batch status, hframeEnabled.trans henabled,
    ⟨9, by decide, pipeline_settle hqueue hpipeline status⟩, ?_⟩
  rw [hframePipeline, hframeStream]
  exact hstream

/-! ## Closing the stream -/

/-- The client after a graceful stop of a stream that nothing needs. -/
def stopped (c : FirestoreClient) : FirestoreClient :=
  { c with
    released := c.released ++
      if c.writeStream.isStarted then (c.writeStream.released .OK).toList else []
    writeStream := c.writeStream.stopped }

theorem isStarted_closed (ws : WriteStream) (status : Status) :
    (ws.closed status).isStarted = false := by
  unfold WriteStream.isStarted WriteStream.isOpen WriteStream.closed
  cases status.ok <;> simp

theorem shouldStart_stopped {c : FirestoreClient}
    (hidle : c.isNetworkEnabled = false ∨ c.writePipeline = []) :
    c.shouldStartWriteStream = false := by
  rcases hidle with hdisabled | hnil
  · simp [shouldStartWriteStream, hdisabled]
  · simp [shouldStartWriteStream, hnil]

/-- A graceful stop only closes the stream, where nothing needs it. -/
theorem stop_eq {c : FirestoreClient} (hidle : c.isNetworkEnabled = false ∨ c.writePipeline = []) :
    c.stop = .ok c.stopped := by
  have hok : Status.OK.ok = true := rfl
  cases hstarted : c.writeStream.isStarted with
  | false =>
      simp [stop, close, hok, hstarted, pure, Except.pure, stopped, WriteStream.stopped]
  | true =>
      have hnot : (c.letGo .OK).shouldStartWriteStream = false := shouldStart_stopped hidle
      have hclose : (c.letGo .OK).onWriteStreamClose .OK = .ok (c.letGo .OK) := by
        simp [onWriteStreamClose, handleStreamError, hok, hnot, bind, Except.bind, pure, Except.pure]
      simp only [stop, close, hok, hstarted, not_true_eq_false, and_false, if_false, hardAssert_of,
        hclose, bind, Except.bind, pure, Except.pure, stopped, WriteStream.stopped, if_true]
      rfl

/-- The client with the stream token forgotten if the error is permanent. -/
def forgetToken (c : FirestoreClient) (status : Status) : FirestoreClient :=
  if isPermanentError status then
    { c with writeStream := { c.writeStream with lastStreamToken := [] } }.setLastStreamToken []
  else c

/-- The client after `OnWriteStreamClose` with an error. With an empty pipeline there is nothing to
    do; a permanent error after the handshake settles the first write; otherwise the stream is
    started again. -/
def reacted (c : FirestoreClient) (status : Status) : FirestoreClient :=
  match c.writePipeline with
  | [] => c
  | batch :: rest =>
      if c.writeStream.handshakeComplete then
        if isPermanentWriteError status then
          (settle { c with
            writePipeline := rest
            writeStream := { c.writeStream with state := .initial } } batch status).refill
        else { c with writeStream := c.writeStream.begun }
      else { c.forgetToken status with writeStream := (c.forgetToken status).writeStream.begun }

section Reacted

variable {c : FirestoreClient} {status : Status} {batch : MutationBatch}
  {rest : List MutationBatch}

theorem reacted_nil (hnil : c.writePipeline = []) : c.reacted status = c := by
  simp only [reacted, hnil]

theorem reacted_permanent (hpipeline : c.writePipeline = batch :: rest)
    (hhandshake : c.writeStream.handshakeComplete = true)
    (hpermanent : isPermanentWriteError status = true) :
    c.reacted status = (settle { c with
      writePipeline := rest
      writeStream := { c.writeStream with state := .initial } } batch status).refill := by
  simp only [reacted, hpipeline, hhandshake, hpermanent, if_true]

theorem reacted_transient (hne : c.writePipeline ≠ [])
    (hhandshake : c.writeStream.handshakeComplete = true)
    (htransient : isPermanentWriteError status = false) :
    c.reacted status = { c with writeStream := c.writeStream.begun } := by
  unfold reacted
  split
  · next hnil => exact absurd hnil hne
  · rw [if_pos hhandshake, if_neg (by simp [htransient])]

theorem reacted_handshake (hne : c.writePipeline ≠ [])
    (hhandshake : c.writeStream.handshakeComplete = false) :
    c.reacted status
      = { c.forgetToken status with writeStream := (c.forgetToken status).writeStream.begun } := by
  unfold reacted
  split
  · next hnil => exact absurd hnil hne
  · rw [if_neg (by simp [hhandshake])]

end Reacted

/-- Forgetting the token touches nothing else. -/
theorem forgetToken_frame (c : FirestoreClient) (status : Status) :
    (c.forgetToken status).isNetworkEnabled = c.isNetworkEnabled ∧
      (c.forgetToken status).writePipeline = c.writePipeline ∧
      (c.forgetToken status).queue = c.queue ∧
      ∃ token, (c.forgetToken status).writeStream
        = { c.writeStream with lastStreamToken := token } := by
  unfold forgetToken
  split
  · exact ⟨rfl, rfl, rfl, [], rfl⟩
  · exact ⟨rfl, rfl, rfl, c.writeStream.lastStreamToken, rfl⟩

theorem QueueOk.forgetToken {c : FirestoreClient} (h : c.QueueOk) (status : Status) :
    (c.forgetToken status).QueueOk := by
  unfold FirestoreClient.forgetToken
  split
  · exact ⟨h.ordered.setLastStreamToken _ _, h.positive, h.below, h.userId⟩
  · exact h

/-- The client after `OnStreamFinish`. -/
def failed (c : FirestoreClient) (status : Status) : FirestoreClient :=
  let c := (c.letGo status).reacted status
  { c with writeStream := { c.writeStream with handshakeComplete := false } }

theorem isStarted_begun (ws : WriteStream) : ws.begun.isStarted = true := by
  cases hstate : ws.state <;>
    simp [WriteStream.begun, WriteStream.isStarted, WriteStream.isOpen, hstate,
      WriteStream.requestCredentials]

theorem shouldStart_refill (c : FirestoreClient) : c.refill.shouldStartWriteStream = false := by
  by_cases hnil : c.queue.take kMaxPendingWrites = []
  · exact shouldStart_stopped (Or.inr hnil)
  · simp only [shouldStartWriteStream, refill, WriteStream.tended, if_neg hnil, isStarted_begun]
    simp

theorem handleHandshakeError_eq {c : FirestoreClient} {status : Status} (h : status.ok = false) :
    c.handleHandshakeError status = .ok (c.forgetToken status) := by
  simp only [handleHandshakeError, h, Bool.false_eq_true, not_false_eq_true, hardAssert_of, bind,
    Except.bind, pure, Except.pure, forgetToken]

/-- A permanent error settles the first write and fills its place in the pipeline. -/
theorem handleWriteError_eq {c : FirestoreClient} (hqueue : c.QueueOk)
    (henabled : c.isNetworkEnabled = true) (htake : c.writePipeline = c.queue.take kMaxPendingWrites)
    (hstopped : c.writeStream.isStarted = false) {batch : MutationBatch}
    {rest : List MutationBatch} (hpipeline : c.writePipeline = batch :: rest) {status : Status}
    (hpermanent : isPermanentWriteError status = true) :
    c.handleWriteError status = .ok (settle { c with
      writePipeline := rest
      writeStream := { c.writeStream with state := .initial } } batch status).refill := by
  have hok : status.ok = false := not_ok_of_isPermanentWriteError hpermanent
  have hmem : batch ∈ c.queue := by
    have hfirst : batch ∈ c.writePipeline := by simp [hpipeline]
    rw [htake] at hfirst
    exact List.mem_of_mem_take hfirst
  have hinhibit : c.writeStream.inhibitBackoff = .ok { c.writeStream with state := .initial } := by
    simp [WriteStream.inhibitBackoff, hstopped, bind, Except.bind, pure, Except.pure]
  let d : FirestoreClient :=
    { c with writePipeline := rest, writeStream := { c.writeStream with state := .initial } }
  have hd : d.QueueOk := ⟨hqueue.ordered, hqueue.positive, hqueue.below, hqueue.userId⟩
  have hreject : d.handleRejectedWrite batch.batchId status = .ok (d.settle batch status) :=
    handleRejectedWrite_eq hd hmem status
  have hfill : (d.settle batch status).fillWritePipeline = .ok (d.settle batch status).refill :=
    fill_settle hd henabled (hpipeline.symm.trans htake) status
  simp only [handleWriteError, hok, Bool.false_eq_true, not_false_eq_true, hardAssert_of, bind,
    Except.bind, hpermanent, if_true, hpipeline, hinhibit]
  rw [show handleRejectedWrite _ batch.batchId status = _ from hreject]
  exact hfill

/-- Whatever the reaction to an error was, the stream need not be started once more. -/
theorem onWriteStreamClose_eq {c : FirestoreClient} (hqueue : c.QueueOk)
    (henabled : c.isNetworkEnabled = true) (htake : c.writePipeline = c.queue.take kMaxPendingWrites)
    (hstopped : c.writeStream.isStarted = false) {status : Status} (hok : status.ok = false) :
    c.onWriteStreamClose status = .ok (c.reacted status) := by
  simp only [onWriteStreamClose, hok, Bool.false_eq_true, false_imp_iff, hardAssert_of, bind,
    Except.bind, handleStreamError, not_false_eq_true, true_and]
  by_cases hne : c.writePipeline = []
  · rw [if_neg (by simp [hne]), reacted_nil hne]
    simp [pure, Except.pure, shouldStart_stopped (Or.inr hne)]
  rw [if_pos hne]
  cases hhandshake : c.writeStream.handshakeComplete with
  | true =>
      rw [if_pos rfl]
      cases hpermanent : isPermanentWriteError status with
      | true =>
          obtain ⟨batch, rest, hpipeline⟩ := List.exists_cons_of_ne_nil hne
          rw [handleWriteError_eq hqueue henabled htake hstopped hpipeline hpermanent,
            reacted_permanent hpipeline hhandshake hpermanent]
          simp only [shouldStart_refill, Bool.false_eq_true, if_false]
          rfl
      | false =>
          rw [reacted_transient hne hhandshake hpermanent]
          simp only [handleWriteError, hok, hpermanent, Bool.false_eq_true, if_false,
            not_false_eq_true, hardAssert_of, bind, Except.bind, pure, Except.pure]
          exact ensureStarted_eq henabled hne
  | false =>
      rw [if_neg (by simp), handleHandshakeError_eq hok, reacted_handshake hne hhandshake]
      obtain ⟨hframeEnabled, hframePipeline, -, -⟩ := c.forgetToken_frame status
      exact ensureStarted_eq (hframeEnabled.trans henabled) (by rw [hframePipeline]; exact hne)

/-- **What the end of a call with an error does.** -/
theorem close_eq {c : FirestoreClient} (h : c.PipelineOk) {status : Status} (hok : status.ok = false)
    (hstarted : c.writeStream.isStarted = true) : c.close status = .ok (c.failed status) := by
  have hguard : ¬ (status.ok = true ∧ ¬ c.writeStream.isStarted = true) := by simp [hok]
  have hqueue : (c.letGo status).QueueOk :=
    ⟨h.queue.ordered, h.queue.positive, h.queue.below, h.queue.userId⟩
  have hclose := onWriteStreamClose_eq hqueue h.enabled h.pipeline
    (isStarted_closed c.writeStream status) hok
  rw [close, if_neg hguard, hardAssert_of hstarted]
  simp only [bind, Except.bind, pure, Except.pure, hclose, failed]

/-- Filling the pipeline looks at the handshake of an open stream only. -/
theorem refill_handshake {c : FirestoreClient} (hstate : c.writeStream.state ≠ .opened)
    (complete : Bool) :
    { c.refill with writeStream := { c.refill.writeStream with handshakeComplete := complete } }
      = refill { c with writeStream := { c.writeStream with handshakeComplete := complete } } := by
  have hopen : c.writeStream.isOpen = false := by simpa [WriteStream.isOpen] using hstate
  have hopen' : WriteStream.isOpen { c.writeStream with handshakeComplete := complete } = false :=
    hopen
  simp only [refill, WriteStream.ready, hopen, hopen', Bool.false_and, Bool.false_eq_true, if_false,
    WriteStream.tended, WriteStream.markIdle, queue]
  split
  · rfl
  · cases hstate : c.writeStream.state <;>
      simp [WriteStream.begun, hstate, WriteStream.requestCredentials]

theorem settle_handshake (c : FirestoreClient) (batch : MutationBatch) (status : Status)
    (complete : Bool) :
    { c.settle batch status with
      writeStream := { (c.settle batch status).writeStream with handshakeComplete := complete } }
      = settle { c with writeStream := { c.writeStream with handshakeComplete := complete } } batch
        status := by
  unfold settle notifyUser
  dsimp only
  split <;> rfl

/-- After an error the client is in order again. -/
theorem clientOk_failed {c : FirestoreClient} (h : c.PipelineOk)
    (hold : ∀ n ∈ c.writeStream.getTokens, n ≤ c.writeStream.closeCount) {status : Status}
    (hok : status.ok = false) : (c.failed status).ClientOk := by
  have hqueue : (c.letGo status).QueueOk :=
    ⟨h.queue.ordered, h.queue.positive, h.queue.below, h.queue.userId⟩
  have hstate : (c.letGo status).writeStream.state = .error := by
    simp [letGo, WriteStream.closed, hok]
  unfold failed
  by_cases hne : c.writePipeline = []
  · rw [reacted_nil (c := c.letGo status) hne]
    refine ⟨⟨⟨hqueue.ordered, hqueue.positive, hqueue.below, hqueue.userId⟩, h.enabled, h.pipeline⟩,
      ?_⟩
    refine { toStreamPre := streamPre_of_not_open ?_ rfl rfl rfl ?_ ?_, started := absurd hne }
    · simp [hstate]
    · simp [hstate]
    · exact tokensOk_of_closed hold rfl rfl (by simp [hstate])
  cases hhandshake : (c.letGo status).writeStream.handshakeComplete with
  | true =>
      cases hpermanent : isPermanentWriteError status with
      | true =>
          obtain ⟨batch, rest, hpipeline⟩ := List.exists_cons_of_ne_nil hne
          let d : FirestoreClient := { c.letGo status with
            writePipeline := rest
            writeStream := { (c.letGo status).writeStream with
              state := .initial, handshakeComplete := false } }
          have hd : d.QueueOk := ⟨hqueue.ordered, hqueue.positive, hqueue.below, hqueue.userId⟩
          have hfillable : (d.settle batch status).Fillable :=
            fillable_settle hd h.enabled (hpipeline.symm.trans h.pipeline) status
              (streamPre_of_not_open (by simp [d]) rfl rfl rfl (by simp [d])
                (tokensOk_of_closed hold rfl rfl (by simp [d])))
          rw [reacted_permanent (c := c.letGo status) hpipeline hhandshake hpermanent]
          dsimp only
          rw [refill_handshake (by rw [(settle_frame _ batch status).2.1]; simp), settle_handshake]
          exact hfillable.ok
      | false =>
          rw [reacted_transient (c := c.letGo status) hne hhandshake hpermanent]
          refine ⟨⟨⟨hqueue.ordered, hqueue.positive, hqueue.below, hqueue.userId⟩, h.enabled,
            h.pipeline⟩, ?_⟩
          simp only [WriteStream.begun, hstate]
          exact {
            toStreamPre := streamPre_of_not_open (by simp) rfl rfl rfl (fun _ => hne)
              (tokensOk_of_closed hold rfl rfl (by simp))
            started := fun _ => rfl }
  | false =>
      rw [reacted_handshake (c := c.letGo status) hne hhandshake]
      obtain ⟨hframeEnabled, hframePipeline, hframeQueue, token, hframeStream⟩ :=
        (c.letGo status).forgetToken_frame status
      have hforgotten := hqueue.forgetToken status
      refine ⟨⟨⟨hforgotten.ordered, hforgotten.positive, hforgotten.below, hforgotten.userId⟩,
        hframeEnabled.trans h.enabled,
        hframePipeline.trans (h.pipeline.trans (congrArg _ hframeQueue.symm))⟩, ?_⟩
      dsimp only
      rw [hframePipeline, hframeStream]
      simp only [WriteStream.begun, hstate]
      exact {
        toStreamPre := streamPre_of_not_open (by simp) rfl rfl rfl (fun _ => hne)
          (tokensOk_of_closed hold rfl rfl (by simp))
        started := fun _ => rfl }

end FirestoreClient

end Harusali.Firestore
