import Harusali.Client.Closing

set_option autoImplicit false

/-! # What each operation does

Where `ClientOk` holds no operation on the worker queue fails an assertion. Each has an equation
that gives the client after it as a function without assertions, and `ClientOk` holds again. -/

namespace Harusali.Firestore

namespace FirestoreClient

/-! ## A write -/

/-- The client after a write has been put in the queue and its callback registered. -/
def issue (c : FirestoreClient) (mutations : List SetMutation) (callback : StatusCallback) :
    FirestoreClient :=
  let batch := c.nextBatch mutations callback
  { c.writeLocally batch with
    mutationCallbacks := Function.update c.mutationCallbacks c.currentUser
      (Function.update (c.mutationCallbacks c.currentUser) batch.batchId
        ((c.mutationCallbacks c.currentUser batch.batchId).or (some callback))) }

theorem queue_issue (c : FirestoreClient) (mutations : List SetMutation)
    (callback : StatusCallback) :
    (c.issue mutations callback).queue = c.queue ++ [c.nextBatch mutations callback] := by
  have h := c.persistence.allMutationBatches_addMutationBatch c.mutationQueue.userId
    c.mutationQueue.userId (c.nextBatch mutations callback)
  rwa [if_pos rfl] at h

theorem QueueOk.issue {c : FirestoreClient} (h : c.QueueOk) (mutations : List SetMutation)
    (callback : StatusCallback) : (c.issue mutations callback).QueueOk := by
  have hpos := h.positive
  refine ⟨h.ordered.addMutationBatch h.positive h.below, ?_, ?_, h.userId⟩
  · show 0 < c.mutationQueue.nextBatchId + 1
    omega
  · intro row hrow
    show row.2.batchId < c.mutationQueue.nextBatchId + 1
    rcases List.mem_append.1 hrow with hrow | hrow
    · have := h.below row hrow
      omega
    · rw [List.mem_singleton.1 hrow]
      show c.mutationQueue.nextBatchId < c.mutationQueue.nextBatchId + 1
      omega

theorem fillable_issue {c : FirestoreClient} (h : c.ClientOk) (mutations : List SetMutation)
    (callback : StatusCallback) : (c.issue mutations callback).Fillable := by
  refine ⟨h.queue.issue mutations callback, h.enabled, ⟨c.writePipeline.length, ?_, ?_⟩,
    h.stream.toStreamPre⟩
  · rw [h.pipeline, List.length_take]
    omega
  · show c.writePipeline = _
    rw [queue_issue, List.take_append_of_le_length]
    · rw [h.pipeline, List.length_take, ← List.take_eq_take_min]
    · rw [h.pipeline, List.length_take]
      omega

theorem writeMutations_eq {c : FirestoreClient} (h : c.ClientOk) (mutations : List SetMutation)
    (callback : StatusCallback) :
    c.writeMutations mutations callback = .ok (c.issue mutations callback).refill :=
  (fillable_issue h mutations callback).fill

/-! ## A credential change -/

/-- The client with the queue of this user open. -/
def withUser (c : FirestoreClient) (user : User) : FirestoreClient :=
  { c with
    currentUser := user
    mutationQueue :=
      if c.currentUser = user then c.mutationQueue else startMutationQueue c.persistence user }

/-- The client with its stream and pipeline shut down and the network enabled again. -/
def restarted (c : FirestoreClient) : FirestoreClient :=
  { c.stopped with
    writePipeline := []
    isNetworkEnabled := true
    writeStream := { c.writeStream.stopped with lastStreamToken := c.mutationQueue.lastStreamToken } }

theorem queueOk_start {c : FirestoreClient} (hordered : c.persistence.Ordered)
    (hstart : c.mutationQueue = startMutationQueue c.persistence c.currentUser) : c.QueueOk := by
  obtain ⟨hpositive, hbelow⟩ := c.persistence.lt_loadNextBatchIdFromDb
  refine ⟨hordered, ?_, ?_, ?_⟩
  · rw [hstart]
    exact hpositive
  · rw [hstart]
    exact hbelow
  · rw [hstart]
    rfl

theorem QueueOk.withUser {c : FirestoreClient} (h : c.QueueOk) (user : User) :
    (c.withUser user).QueueOk := by
  by_cases hsame : c.currentUser = user
  · have hqueue : (c.withUser user).mutationQueue = c.mutationQueue := if_pos hsame
    refine ⟨h.ordered, ?_, ?_, ?_⟩
    · rw [hqueue]
      exact h.positive
    · rw [hqueue]
      exact h.below
    · rw [hqueue, h.userId, hsame]
      rfl
  · exact queueOk_start h.ordered (if_neg hsame)

theorem fillable_restarted {c : FirestoreClient} (h : c.QueueOk)
    (hstream : StreamPre c.writePipeline c.writeStream) : c.restarted.Fillable := by
  obtain ⟨hstate, hcall, hhandshake, hidle, htokens⟩ := hstream.stopped
  refine ⟨⟨h.ordered, h.positive, h.below, h.userId⟩, rfl, ⟨0, Nat.zero_le _, rfl⟩, ?_⟩
  refine streamPre_of_not_open ?_ hcall hhandshake hidle ?_ ⟨htokens.current, htokens.old⟩
  · intro hopened
    rcases hstate with h | h <;> exact absurd (hopened.symm.trans h) (by simp)
  · rintro (hwaiting | hwaiting) <;> rcases hstate with h | h <;>
      exact absurd (hwaiting.symm.trans h) (by simp)

theorem restartStreams_eq {c : FirestoreClient} (h : c.QueueOk)
    (hstream : StreamPre c.writePipeline c.writeStream) (henabled : c.isNetworkEnabled = true) :
    c.restartStreams = .ok c.restarted.refill := by
  have hstop : stop { c with isNetworkEnabled := false }
      = .ok (stopped { c with isNetworkEnabled := false }) := stop_eq (Or.inl rfl)
  simp only [restartStreams, henabled, if_true, disableNetworkInternal, hstop, bind, Except.bind,
    pure, Except.pure]
  exact (fillable_restarted h hstream).fill

theorem fillable_switched {c : FirestoreClient} (h : c.ClientOk) (user : User) :
    (c.withUser user).restarted.Fillable :=
  fillable_restarted (h.queue.withUser user) h.stream.toStreamPre

theorem handleCredentialChange_eq {c : FirestoreClient} (h : c.ClientOk) (user : User) :
    c.handleCredentialChange user = .ok (c.withUser user).restarted.refill := by
  have hrestart := restartStreams_eq (h.queue.withUser user) (c := c.withUser user)
    h.stream.toStreamPre h.enabled
  rw [← hrestart, handleCredentialChange, withUser]
  by_cases hsame : c.currentUser = user
  · rw [if_neg (by simpa using hsame), if_pos hsame]
  · rw [if_pos hsame, if_neg hsame]
    rfl

/-! ## A new process -/

/-- A new process after it has opened the queue of this user. -/
def booted (db : Persistence) (user : User) (released : List Call) (settled : List (Nat × Status))
    (notified : List (StatusCallback × Status)) : FirestoreClient where
  persistence := db
  mutationQueue := startMutationQueue db user
  currentUser := user
  mutationCallbacks := fun _ _ => none
  isNetworkEnabled := true
  writePipeline := []
  writeStream := { WriteStream.initial with lastStreamToken := db.mutationQueue user.userId }
  released
  settled
  notified

theorem fillable_booted {db : Persistence} (hordered : db.Ordered) (user : User)
    (released : List Call) (settled : List (Nat × Status))
    (notified : List (StatusCallback × Status)) :
    (booted db user released settled notified).Fillable := by
  refine ⟨queueOk_start hordered rfl, rfl, ⟨0, Nat.zero_le _, rfl⟩, ?_⟩
  refine streamPre_of_not_open ?_ rfl rfl rfl ?_ ⟨rfl, ?_⟩ <;> simp [booted, WriteStream.initial]

theorem initializeClient_eq {db : Persistence} (hordered : db.Ordered) (user : User)
    (released : List Call) (settled : List (Nat × Status))
    (notified : List (StatusCallback × Status)) :
    initializeClient db user released settled notified
      = .ok (booted db user released settled notified).refill :=
  (fillable_booted hordered user released settled notified).fill

/-! ## The stream is started -/

theorem backoffElapsed_eq {c : FirestoreClient} (hstate : c.writeStream.state = .backoff) :
    c.backoffElapsed = .ok { c with
      writeStream := { c.writeStream with state := .initial }.begun } := by
  have hstart : WriteStream.start { c.writeStream with state := .initial }
      = .ok (WriteStream.begun { c.writeStream with state := .initial }) :=
    WriteStream.start_eq (by simp [WriteStream.isStarted, WriteStream.isOpen])
  simp only [backoffElapsed, WriteStream.backoffElapsed, hardAssert_of hstate, hstart,
    hardAssert_of (isStarted_begun _), bind, Except.bind, pure, Except.pure]

theorem clientOk_backoffElapsed {c : FirestoreClient} (h : c.ClientOk)
    (hstate : c.writeStream.state = .backoff) :
    ClientOk { c with writeStream := { c.writeStream with state := .initial }.begun } := by
  obtain ⟨hcall, hhandshake, hidle⟩ := h.stream.not_open (by simp [hstate])
  have hne : c.writePipeline ≠ [] := h.stream.waiting (Or.inr hstate)
  have htokens : TokensOk { c.writeStream with state := .initial } := by
    have hcurrent := h.stream.tokens.current
    rw [if_neg (by simp [hstate])] at hcurrent
    exact ⟨by simpa using hcurrent, h.stream.tokens.old⟩
  have hpre : StreamPre c.writePipeline { c.writeStream with state := .initial } :=
    streamPre_of_not_open (by simp) hcall hhandshake hidle (by simp) htokens
  have hok := streamOk_tended hpre
  rw [WriteStream.tended, if_neg hne] at hok
  exact ⟨⟨⟨h.queue.ordered, h.queue.positive, h.queue.below, h.queue.userId⟩, h.enabled, h.pipeline⟩,
    hok⟩

/-- The stream with the handshake sent on a new call. -/
def opened (ws : WriteStream) (token : Token) : WriteStream :=
  { ws with
    state := .opened
    idlenessTimer := false
    grpcStream := some { Call.start token with requests := [.handshake] } }

/-- The client after it has got a token it asked for. -/
def answered (c : FirestoreClient) (initialCloseCount : Nat) : FirestoreClient :=
  { c with
    writeStream := { c.writeStream with
      getTokens := c.writeStream.getTokens.erase initialCloseCount } }

theorem pipelineOk_answered {c : FirestoreClient} (h : c.PipelineOk) (n : Nat) :
    (c.answered n).PipelineOk :=
  ⟨⟨h.queue.ordered, h.queue.positive, h.queue.below, h.queue.userId⟩, h.enabled, h.pipeline⟩

theorem old_answered {c : FirestoreClient} (h : c.ClientOk) (n : Nat) :
    ∀ m ∈ (c.answered n).writeStream.getTokens, m ≤ (c.answered n).writeStream.closeCount :=
  fun m hm => h.stream.tokens.old m (List.mem_of_mem_erase hm)

/-- A token that comes too late is dropped. -/
theorem resume_stale {c : FirestoreClient} {n : Nat} (hstale : c.writeStream.closeCount ≠ n)
    (maybeToken : Except Status Token) :
    c.resumeStartWithCredentials n maybeToken = .ok (c.answered n) := by
  simp only [resumeStartWithCredentials, hstale, ne_eq, not_false_eq_true, if_true, pure,
    Except.pure, answered]

theorem clientOk_stale {c : FirestoreClient} (h : c.ClientOk) {n : Nat}
    (hstale : c.writeStream.closeCount ≠ n) : (c.answered n).ClientOk := by
  refine ⟨pipelineOk_answered h.toPipelineOk n, ?_⟩
  refine { h.stream with tokens := ⟨?_, old_answered h n⟩ }
  show (c.writeStream.getTokens.erase n).count c.writeStream.closeCount = _
  rw [List.count_erase_of_ne hstale]
  exact h.stream.tokens.current

/-- The token the stream waits for finds it starting. -/
theorem starting_of_mem {c : FirestoreClient} (h : c.ClientOk)
    (hmem : c.writeStream.closeCount ∈ c.writeStream.getTokens) :
    c.writeStream.state = .starting := by
  by_contra hstate
  have hcurrent := h.stream.tokens.current
  rw [if_neg hstate] at hcurrent
  exact List.count_eq_zero.1 hcurrent hmem

theorem resume_error {c : FirestoreClient} (h : c.ClientOk)
    (hmem : c.writeStream.closeCount ∈ c.writeStream.getTokens) {status : Status}
    (hok : status.ok = false) :
    c.resumeStartWithCredentials c.writeStream.closeCount (.error status)
      = .ok ((c.answered c.writeStream.closeCount).failed status) := by
  have hstate := starting_of_mem h hmem
  have hclose := close_eq (c := c.answered c.writeStream.closeCount)
    (pipelineOk_answered h.toPipelineOk _) hok
    (by simp [answered, WriteStream.isStarted, hstate])
  rw [resumeStartWithCredentials]
  dsimp only
  rw [if_neg (by simp), hardAssert_of hstate]
  exact hclose

theorem resume_ok {c : FirestoreClient} (h : c.ClientOk)
    (hmem : c.writeStream.closeCount ∈ c.writeStream.getTokens) (token : Token) :
    c.resumeStartWithCredentials c.writeStream.closeCount (.ok token)
      = .ok { c with
          writeStream := opened (c.answered c.writeStream.closeCount).writeStream token } := by
  have hstate := starting_of_mem h hmem
  obtain ⟨-, hhandshake, -⟩ := h.stream.not_open (by simp [hstate])
  simp [resumeStartWithCredentials, hstate, WriteStream.onStreamStart, WriteStream.writeHandshake,
    WriteStream.write, WriteStream.isOpen, hhandshake, bind, Except.bind, pure, Except.pure, opened,
    Call.send, Call.start, answered]

theorem clientOk_opened {c : FirestoreClient} (h : c.ClientOk)
    (hmem : c.writeStream.closeCount ∈ c.writeStream.getTokens) (token : Token) :
    ClientOk { c with
      writeStream := opened (c.answered c.writeStream.closeCount).writeStream token } := by
  have hstate := starting_of_mem h hmem
  obtain ⟨-, hhandshake, -⟩ := h.stream.not_open (by simp [hstate])
  have hne : c.writePipeline ≠ [] := h.stream.waiting (Or.inl hstate)
  refine ⟨⟨⟨h.queue.ordered, h.queue.positive, h.queue.below, h.queue.userId⟩, h.enabled, h.pipeline⟩,
    ?_⟩
  refine {
    idle := fun hidle => absurd hidle (by simp [opened])
    handshake := fun _ => rfl
    waiting := fun hwaiting => absurd hwaiting (by simp [opened])
    tokens := ⟨?_, old_answered h _⟩
    opened := fun _ => ⟨_, rfl⟩
    call := fun call hcall => ⟨rfl, ?_⟩
    started := fun _ => by simp [opened, WriteStream.isStarted, WriteStream.isOpen] }
  · show (c.writeStream.getTokens.erase c.writeStream.closeCount).count c.writeStream.closeCount = 0
    rw [List.count_erase_self, h.stream.tokens.current, if_pos hstate]
  · have hnot : ¬ (opened (c.answered c.writeStream.closeCount).writeStream token).handshakeComplete
        = true := by simp [opened, answered, hhandshake]
    rw [if_neg hnot, ← Option.some.inj hcall]
    exact ⟨hne, Or.inl ⟨rfl, rfl⟩⟩

end FirestoreClient

end Harusali.Firestore
