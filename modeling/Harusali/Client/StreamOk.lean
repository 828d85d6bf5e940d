import Harusali.Client.Pipeline

set_option autoImplicit false

/-! # The client between operations

`ClientOk` says what holds of the client between two operations on the worker queue: the
pipeline is the first ten batches of the queue, and the stream is in a state that fits it. Every
operation that changes one of the two ends by filling the pipeline, which restores it from less
(`Fillable`). -/

namespace Harusali.Firestore

/-! ## Calls and pipelines -/

/-- The write a request is for. -/
def Request.write? : Request → Option Nat
  | .handshake => none
  | .writeMutations _ _ write => some write
  | .emptyMutationsList _ => none

/-- The handshake, or the response to it, is all there is on the call. -/
def Call.Greets (call : Call) : Prop :=
  (call.requests = [.handshake] ∧ call.responses = []) ∨
    (call.requests = [] ∧ ∃ message, call.responses = [⟨message, none⟩])

/-- The call carries one request or response for each batch of the pipeline, in order. -/
def Call.Carries (call : Call) (pipeline : List MutationBatch) : Prop :=
  call.responses.map (·.write) ++ call.requests.map Request.write?
    = pipeline.map fun batch => some batch.write

/-- The stream waits for one token while it starts, and for none otherwise; tokens asked for before
    the last close come too late. -/
structure TokensOk (ws : WriteStream) : Prop where
  current : ws.getTokens.count ws.closeCount = if ws.state = .starting then 1 else 0
  old : ∀ n ∈ ws.getTokens, n ≤ ws.closeCount

/-- The stream fits the pipeline, except that it may still have to be started. -/
structure StreamPre (pipeline : List MutationBatch) (ws : WriteStream) : Prop where
  idle : ws.idlenessTimer = true → ws.state = .opened ∧ pipeline = []
  handshake : ws.handshakeComplete = true → ws.state = .opened
  waiting : ws.state = .starting ∨ ws.state = .backoff → pipeline ≠ []
  tokens : TokensOk ws
  opened : ws.state = .opened → ∃ call, ws.grpcStream = some call
  call : ∀ call, ws.grpcStream = some call → ws.state = .opened ∧
    if ws.handshakeComplete then call.Carries pipeline else pipeline ≠ [] ∧ call.Greets

/-- The stream fits the pipeline. -/
structure StreamOk (pipeline : List MutationBatch) (ws : WriteStream) : Prop
    extends StreamPre pipeline ws where
  started : pipeline ≠ [] → ws.isStarted = true

/-- A stream that is not open holds no call. -/
theorem StreamPre.not_open {pipeline : List MutationBatch} {ws : WriteStream}
    (h : StreamPre pipeline ws) (hstate : ws.state ≠ .opened) :
    ws.grpcStream = none ∧ ws.handshakeComplete = false ∧ ws.idlenessTimer = false := by
  refine ⟨?_, ?_, ?_⟩
  · cases hcall : ws.grpcStream with
    | none => rfl
    | some call => exact absurd (h.call call hcall).1 hstate
  · cases hhandshake : ws.handshakeComplete with
    | false => rfl
    | true => exact absurd (h.handshake hhandshake) hstate
  · cases hidle : ws.idlenessTimer with
    | false => rfl
    | true => exact absurd (h.idle hidle).1 hstate

/-- A close makes every token come too late. -/
theorem tokensOk_of_closed {ws ws' : WriteStream} (hold : ∀ n ∈ ws.getTokens, n ≤ ws.closeCount)
    (hclose : ws'.closeCount = ws.closeCount + 1) (htokens : ws'.getTokens = ws.getTokens)
    (hstate : ws'.state ≠ .starting) : TokensOk ws' := by
  have hlt : ∀ n ∈ ws'.getTokens, n < ws'.closeCount := by
    intro n hn
    rw [htokens] at hn
    have := hold n hn
    omega
  refine ⟨?_, fun n hn => Nat.le_of_lt (hlt n hn)⟩
  rw [if_neg hstate, List.count_eq_zero]
  exact fun hmem => absurd (hlt _ hmem) (Nat.lt_irrefl _)

/-- A `Start` asks for one token, or puts it off. -/
theorem TokensOk.begun {ws : WriteStream} (h : TokensOk ws) : TokensOk ws.begun := by
  cases hstate : ws.state with
  | initial =>
      have hcurrent := h.current
      rw [if_neg (by simp [hstate])] at hcurrent
      simp only [WriteStream.begun, hstate, WriteStream.requestCredentials]
      refine ⟨by simp [hcurrent], fun n hn => ?_⟩
      rcases List.mem_append.1 hn with hn | hn
      · exact h.old n hn
      · exact Nat.le_of_eq (List.mem_singleton.1 hn)
  | error =>
      have hcurrent := h.current
      rw [if_neg (by simp [hstate])] at hcurrent
      simp only [WriteStream.begun, hstate]
      exact ⟨by simpa using hcurrent, h.old⟩
  | starting => simpa only [WriteStream.begun, hstate] using h
  | opened => simpa only [WriteStream.begun, hstate] using h
  | backoff => simpa only [WriteStream.begun, hstate] using h

theorem streamPre_of_not_open {pipeline : List MutationBatch} {ws : WriteStream}
    (hstate : ws.state ≠ .opened) (hcall : ws.grpcStream = none)
    (hhandshake : ws.handshakeComplete = false) (hidle : ws.idlenessTimer = false)
    (hwaiting : ws.state = .starting ∨ ws.state = .backoff → pipeline ≠ [])
    (htokens : TokensOk ws) : StreamPre pipeline ws where
  idle h := absurd (hidle.symm.trans h) (by simp)
  handshake h := absurd (hhandshake.symm.trans h) (by simp)
  waiting := hwaiting
  tokens := htokens
  opened h := absurd h hstate
  call _ h := absurd (hcall.symm.trans h) (by simp)

namespace FirestoreClient

/-- The queue of the current user is open, and new batches get new ids. -/
structure QueueOk (c : FirestoreClient) : Prop where
  ordered : c.persistence.Ordered
  positive : 0 < c.mutationQueue.nextBatchId
  below : ∀ row ∈ c.persistence.mutation, row.2.batchId < c.mutationQueue.nextBatchId
  userId : c.mutationQueue.userId = c.currentUser.userId

/-- The pipeline is full. -/
structure PipelineOk (c : FirestoreClient) : Prop where
  queue : c.QueueOk
  enabled : c.isNetworkEnabled = true
  pipeline : c.writePipeline = c.queue.take kMaxPendingWrites

/-- What holds between operations. -/
structure ClientOk (c : FirestoreClient) : Prop extends PipelineOk c where
  stream : StreamOk c.writePipeline c.writeStream

/-! ## Filling the pipeline fits the stream to it -/

theorem streamPre_sent {pipeline new : List MutationBatch} {ws : WriteStream}
    (h : StreamPre pipeline ws) :
    StreamPre (pipeline ++ new) (if ws.ready then ws.sent new else ws) := by
  cases hready : ws.ready with
  | false =>
      rw [if_neg (by simp)]
      refine { h with idle := ?_, waiting := ?_, call := ?_ }
      · intro hidle
        obtain ⟨hopened, hnil⟩ := h.idle hidle
        -- an open stream that is not ready has a pipeline, so it is not idle
        obtain ⟨call, hcall⟩ := h.opened hopened
        have hhandshake : ws.handshakeComplete = false := by
          simpa [WriteStream.ready, WriteStream.isOpen, hopened] using hready
        have hne := (h.call call hcall).2
        rw [hhandshake] at hne
        exact absurd hnil hne.1
      · intro hwaiting
        simp [h.waiting hwaiting]
      · intro call hcall
        obtain ⟨hopened, hfits⟩ := h.call call hcall
        have hhandshake : ws.handshakeComplete = false := by
          simpa [WriteStream.ready, WriteStream.isOpen, hopened] using hready
        rw [hhandshake] at hfits ⊢
        exact ⟨hopened, by simp [hfits.1], hfits.2⟩
  | true =>
      rw [if_pos rfl]
      obtain ⟨hopen, hhandshake⟩ := Bool.and_eq_true_iff.1 hready
      have hopened : ws.state = .opened := by simpa [WriteStream.isOpen] using hopen
      obtain ⟨call, hcall⟩ := h.opened hopened
      have hcarries := (h.call call hcall).2
      rw [if_pos hhandshake] at hcarries
      by_cases hnew : new = []
      · rw [hnew, List.append_nil, WriteStream.sent_nil]
        exact h
      · simp only [WriteStream.sent, if_neg hnew, hcall, Option.map_some]
        refine ⟨by simp, fun _ => hopened, ?_, ⟨h.tokens.current, h.tokens.old⟩, fun _ => ⟨_, rfl⟩, ?_⟩
        · rintro (hstate | hstate)
          · exact absurd (hstate.symm.trans hopened) (by simp)
          · exact absurd (hstate.symm.trans hopened) (by simp)
        · intro call' hcall'
          refine ⟨hopened, ?_⟩
          rw [if_pos hhandshake, ← Option.some.inj hcall']
          unfold Call.Carries at hcarries ⊢
          simp only [List.map_append, List.map_map, ← hcarries, List.append_assoc]
          rfl

theorem streamOk_tended {pipeline : List MutationBatch} {ws : WriteStream}
    (h : StreamPre pipeline ws) : StreamOk pipeline (ws.tended pipeline) := by
  unfold WriteStream.tended
  by_cases hnil : pipeline = []
  · rw [if_pos hnil]
    refine { toStreamPre := ?_, started := fun hne => absurd hnil hne }
    unfold WriteStream.markIdle
    cases hopen : ws.isOpen with
    | false => exact h
    | true =>
        have hopened : ws.state = .opened := by simpa [WriteStream.isOpen] using hopen
        exact { h with idle := fun _ => ⟨hopened, hnil⟩, tokens := ⟨h.tokens.current, h.tokens.old⟩ }
  · rw [if_neg hnil]
    have hstarted : ∀ ws : WriteStream, ws.isStarted = true → StreamPre pipeline ws →
        StreamOk pipeline ws := fun _ hstarted hpre => { hpre with started := fun _ => hstarted }
    have htokens := h.tokens.begun
    cases hstate : ws.state with
    | initial =>
        obtain ⟨hcall, hhandshake, hidle⟩ := h.not_open (by simp [hstate])
        simp only [WriteStream.begun, hstate, WriteStream.requestCredentials] at htokens ⊢
        exact hstarted _ rfl (streamPre_of_not_open (by simp) hcall hhandshake hidle
          (fun _ => hnil) htokens)
    | error =>
        obtain ⟨hcall, hhandshake, hidle⟩ := h.not_open (by simp [hstate])
        simp only [WriteStream.begun, hstate] at htokens ⊢
        exact hstarted _ rfl (streamPre_of_not_open (by simp) hcall hhandshake hidle
          (fun _ => hnil) htokens)
    | starting =>
        have hrunning : ws.isStarted = true := by simp [WriteStream.isStarted, hstate]
        rw [WriteStream.begun_of_isStarted hrunning]
        exact hstarted ws hrunning h
    | opened =>
        have hrunning : ws.isStarted = true := by
          simp [WriteStream.isStarted, WriteStream.isOpen, hstate]
        rw [WriteStream.begun_of_isStarted hrunning]
        exact hstarted ws hrunning h
    | backoff =>
        have hrunning : ws.isStarted = true := by simp [WriteStream.isStarted, hstate]
        rw [WriteStream.begun_of_isStarted hrunning]
        exact hstarted ws hrunning h

/-- The queue, the stream and what is left of the pipeline, before the pipeline is filled. -/
structure Fillable (c : FirestoreClient) : Prop where
  queue : c.QueueOk
  enabled : c.isNetworkEnabled = true
  pipeline : ∃ n, n ≤ kMaxPendingWrites ∧ c.writePipeline = c.queue.take n
  stream : StreamPre c.writePipeline c.writeStream

theorem Fillable.fill {c : FirestoreClient} (h : c.Fillable) :
    c.fillWritePipeline = .ok c.refill := by
  obtain ⟨n, hn, hpipeline⟩ := h.pipeline
  exact fillWritePipeline_eq h.queue.ordered h.enabled hn hpipeline

theorem Fillable.ok {c : FirestoreClient} (h : c.Fillable) : c.refill.ClientOk := by
  obtain ⟨n, hn, hpipeline⟩ := h.pipeline
  have hsplit : c.queue.take kMaxPendingWrites
      = c.writePipeline ++ (c.queue.take kMaxPendingWrites).drop c.writePipeline.length := by
    have hprefix : c.writePipeline <+: c.queue.take kMaxPendingWrites := by
      rw [hpipeline]
      exact List.take_prefix_take_left hn
    obtain ⟨new, hnew⟩ := hprefix
    rw [← hnew, List.drop_left]
  refine ⟨⟨⟨h.queue.ordered, h.queue.positive, h.queue.below, h.queue.userId⟩, h.enabled, rfl⟩, ?_⟩
  refine streamOk_tended ?_
  have hpre : StreamPre (c.writePipeline ++
      (c.queue.take kMaxPendingWrites).drop c.writePipeline.length) _ := streamPre_sent h.stream
  rwa [← hsplit] at hpre

end FirestoreClient

end Harusali.Firestore
