import Harusali.Client.Operations

set_option autoImplicit false

/-! # Reading a response

The four things a response can do to the client: complete the handshake, acknowledge the first
write of the pipeline, or end the stream because it cannot be parsed or decoded. -/

namespace Harusali.Firestore

namespace FirestoreClient

/-- The client with another call in the place of its own. -/
def withCall (c : FirestoreClient) (call : Call) : FirestoreClient :=
  { c with writeStream := { c.writeStream with grpcStream := some call } }

/-- The client with this token on its stream. -/
def withToken (c : FirestoreClient) (streamToken : ByteString) : FirestoreClient :=
  { c with writeStream := { c.writeStream with lastStreamToken := streamToken } }

theorem pipelineOk_withCall {c : FirestoreClient} (h : c.PipelineOk) (call : Call) :
    (c.withCall call).PipelineOk :=
  ⟨⟨h.queue.ordered, h.queue.positive, h.queue.below, h.queue.userId⟩, h.enabled, h.pipeline⟩

theorem pipelineOk_withToken {c : FirestoreClient} (h : c.PipelineOk) (streamToken : ByteString) :
    (c.withToken streamToken).PipelineOk :=
  ⟨⟨h.queue.ordered, h.queue.positive, h.queue.below, h.queue.userId⟩, h.enabled, h.pipeline⟩

/-- The client after the handshake has been completed: the whole pipeline is sent. -/
def greeted (c : FirestoreClient) (streamToken : ByteString) : FirestoreClient :=
  { c.setLastStreamToken streamToken with
    writeStream := { c.writeStream with
      lastStreamToken := streamToken, handshakeComplete := true }.sent c.writePipeline }

/-- The client after the first write of the pipeline has been acknowledged. -/
def acknowledged (c : FirestoreClient) (streamToken : ByteString) (batch : MutationBatch)
    (rest : List MutationBatch) : FirestoreClient :=
  settle { (c.withToken streamToken).setLastStreamToken streamToken with writePipeline := rest }
    batch .OK

section Equations

variable {c d : FirestoreClient} {streamToken : ByteString}

/-- What reading a message comes to, by what the listener made of it. -/
theorem onStreamRead_eq (hstarted : c.writeStream.isStarted = true) {message : Message}
    {status : Status} (hnotify : c.notifyStreamResponse message = .ok (d, status)) :
    c.onStreamRead message = if status.ok then .ok d else d.close status := by
  simp only [onStreamRead, hardAssert_of hstarted, hnotify, bind, Except.bind, pure, Except.pure]

theorem onStreamRead_unparsed (h : c.PipelineOk) (hstarted : c.writeStream.isStarted = true)
    {status : Status} (hok : status.ok = false) :
    c.onStreamRead (.unparsed status) = .ok (c.failed status) := by
  have hnotify : c.notifyStreamResponse (.unparsed status) = .ok (c, status) := rfl
  rw [onStreamRead_eq hstarted hnotify, if_neg (by simp [hok])]
  exact close_eq h hok hstarted

theorem onStreamRead_undecoded (h : c.PipelineOk) (hstarted : c.writeStream.isStarted = true)
    (hhandshake : c.writeStream.handshakeComplete = true) {status : Status}
    (hok : status.ok = false) :
    c.onStreamRead (.response streamToken (.error status))
      = .ok ((c.withToken streamToken).failed status) := by
  have hnotify : c.notifyStreamResponse (.response streamToken (.error status))
      = .ok (c.withToken streamToken, status) := if_neg (by simp [hhandshake])
  rw [onStreamRead_eq hstarted hnotify, if_neg (by simp [hok])]
  exact close_eq (pipelineOk_withToken h streamToken) hok hstarted

theorem onStreamRead_greeted (hopened : c.writeStream.state = .opened)
    (hhandshake : c.writeStream.handshakeComplete = false)
    (mutationResults : Except Status Nat) :
    c.onStreamRead (.response streamToken mutationResults) = .ok (c.greeted streamToken) := by
  have hstarted : c.writeStream.isStarted = true := by
    simp [WriteStream.isStarted, WriteStream.isOpen, hopened]
  have hready : WriteStream.ready { c.writeStream with
      lastStreamToken := streamToken, handshakeComplete := true } = true := by
    simp [WriteStream.ready, WriteStream.isOpen, hopened]
  have hnotify : c.notifyStreamResponse (.response streamToken mutationResults)
      = .ok (c.greeted streamToken, .OK) := by
    refine (if_pos (by simp [hhandshake])).trans ?_
    simp only [onWriteStreamHandshakeComplete, setLastStreamToken, sendAll_eq _ hready, bind,
      Except.bind, pure, Except.pure]
    rfl
  rw [onStreamRead_eq hstarted hnotify]
  rfl

theorem onStreamRead_acknowledged (h : c.PipelineOk) (hstarted : c.writeStream.isStarted = true)
    (hhandshake : c.writeStream.handshakeComplete = true) {batch : MutationBatch}
    {rest : List MutationBatch} (hpipeline : c.writePipeline = batch :: rest) :
    c.onStreamRead (.response streamToken (.ok batch.mutations.length))
      = .ok (c.acknowledged streamToken batch rest).refill := by
  have hmem : batch ∈ c.queue := by
    have hfirst : batch ∈ c.writePipeline := by simp [hpipeline]
    rw [h.pipeline] at hfirst
    exact List.mem_of_mem_take hfirst
  have hd : QueueOk { c.withToken streamToken with writePipeline := rest } :=
    ⟨h.queue.ordered, h.queue.positive, h.queue.below, h.queue.userId⟩
  have hsuccess : handleSuccessfulWrite { c.withToken streamToken with writePipeline := rest } batch
      streamToken = .ok (c.acknowledged streamToken batch rest) :=
    handleSuccessfulWrite_eq hd hmem streamToken
  have hfill : (c.acknowledged streamToken batch rest).fillWritePipeline
      = .ok (c.acknowledged streamToken batch rest).refill :=
    fill_settle (hd.setLastStreamToken streamToken) h.enabled (hpipeline.symm.trans h.pipeline) .OK
  have hresult : (c.withToken streamToken).onWriteStreamMutationResult batch.mutations.length
      = .ok (c.acknowledged streamToken batch rest).refill := by
    unfold onWriteStreamMutationResult
    rw [show (c.withToken streamToken).writePipeline = batch :: rest from hpipeline]
    dsimp only
    rw [hardAssert_of rfl]
    exact (congrArg (Except.bind · fillWritePipeline) hsuccess).trans hfill
  have hnotify : c.notifyStreamResponse (.response streamToken (.ok batch.mutations.length))
      = .ok ((c.acknowledged streamToken batch rest).refill, .OK) := by
    refine (if_neg (by simp [hhandshake])).trans ?_
    exact congrArg (Except.bind · fun c => .ok (c, Status.OK)) hresult
  rw [onStreamRead_eq hstarted hnotify]
  rfl

end Equations

/-! ## The client is in order again -/

section Ok

variable {c : FirestoreClient} {token : Token} {requests : List Request} {response : Response}
  {responses : List Response} {ended : Option Status} {streamToken : ByteString}

theorem clientOk_greeted (h : c.ClientOk)
    (hcall : c.writeStream.grpcStream = some ⟨token, requests, response :: responses, ended⟩)
    (hhandshake : c.writeStream.handshakeComplete = false) :
    ((c.withCall ⟨token, requests, responses, ended⟩).greeted streamToken).ClientOk := by
  obtain ⟨hopened, hfits⟩ := h.stream.call _ hcall
  rw [hhandshake, if_neg (by simp)] at hfits
  obtain ⟨hne, hgreets⟩ := hfits
  obtain ⟨rfl, rfl⟩ : requests = [] ∧ responses = [] := by
    rcases hgreets with ⟨-, hnil⟩ | ⟨hrequests, message, hresponses⟩
    · exact absurd hnil (by simp)
    · exact ⟨hrequests, (List.cons.inj hresponses).2⟩
  have hqueue := h.queue.setLastStreamToken streamToken
  refine ⟨⟨⟨hqueue.ordered, hqueue.positive, hqueue.below, hqueue.userId⟩, h.enabled, h.pipeline⟩, ?_⟩
  have hsent : ((c.withCall ⟨token, [], [], ended⟩).greeted streamToken).writeStream
      = { c.writeStream with
          idlenessTimer := false
          handshakeComplete := true
          lastStreamToken := streamToken
          grpcStream := some ⟨token, c.writePipeline.map
            (WriteStream.request { c.writeStream with lastStreamToken := streamToken }), [],
            ended⟩ } := by
    simp [greeted, withCall, WriteStream.sent, hne, WriteStream.request]
  rw [hsent]
  refine {
    idle := by simp
    handshake := fun _ => hopened
    waiting := h.stream.waiting
    tokens := ⟨h.stream.tokens.current, h.stream.tokens.old⟩
    opened := fun _ => ⟨_, rfl⟩
    call := fun call hcall' => ⟨hopened, ?_⟩
    started := fun hne => by simpa [WriteStream.isStarted, WriteStream.isOpen] using Or.inr (Or.inr hopened) }
  rw [if_pos rfl, ← Option.some.inj hcall']
  show [].map _ ++ _ = _
  simp only [List.map_nil, List.nil_append, List.map_map]
  rfl

/-- The response at the head of a call that carries the pipeline is for its first write. -/
theorem first_of_carries (h : c.ClientOk)
    (hcall : c.writeStream.grpcStream = some ⟨token, requests, response :: responses, ended⟩)
    (hhandshake : c.writeStream.handshakeComplete = true) :
    ∃ batch rest, c.writePipeline = batch :: rest ∧ response.write = some batch.write ∧
      Call.Carries ⟨token, requests, responses, ended⟩ rest := by
  obtain ⟨-, hcarries⟩ := h.stream.call _ hcall
  rw [if_pos hhandshake] at hcarries
  cases hpipeline : c.writePipeline with
  | nil =>
      rw [hpipeline] at hcarries
      exact absurd hcarries (by simp [Call.Carries])
  | cons batch rest =>
      rw [hpipeline, Call.Carries] at hcarries
      simp only [List.map_cons, List.cons_append, List.cons.injEq] at hcarries
      exact ⟨batch, rest, rfl, hcarries.1, hcarries.2⟩

theorem fillable_acknowledged (h : c.ClientOk)
    (hcall : c.writeStream.grpcStream = some ⟨token, requests, response :: responses, ended⟩)
    (hhandshake : c.writeStream.handshakeComplete = true) {batch : MutationBatch}
    {rest : List MutationBatch} (hpipeline : c.writePipeline = batch :: rest)
    (hcarries : Call.Carries ⟨token, requests, responses, ended⟩ rest) :
    ((c.withCall ⟨token, requests, responses, ended⟩).acknowledged streamToken batch
      rest).Fillable := by
  obtain ⟨hopened, -⟩ := h.stream.call _ hcall
  have hidle : c.writeStream.idlenessTimer = false := by
    cases hidle : c.writeStream.idlenessTimer with
    | false => rfl
    | true => exact absurd ((h.stream.idle hidle).2.symm.trans hpipeline) (by simp)
  refine fillable_settle
    (c := { ((c.withCall ⟨token, requests, responses, ended⟩).withToken streamToken).setLastStreamToken
      streamToken with writePipeline := rest }) ?_ h.enabled ?_ .OK ?_
  · have hqueue := h.queue.setLastStreamToken streamToken
    exact ⟨hqueue.ordered, hqueue.positive, hqueue.below, hqueue.userId⟩
  · exact hpipeline.symm.trans h.pipeline
  · exact {
      idle := fun h => absurd (hidle.symm.trans h) (by simp)
      handshake := fun _ => hopened
      waiting := fun hwaiting => by
        rcases hwaiting with h | h <;> exact absurd (h.symm.trans hopened) (by simp)
      tokens := ⟨h.stream.tokens.current, h.stream.tokens.old⟩
      opened := fun _ => ⟨_, rfl⟩
      call := fun call hcall' => by
        obtain rfl := Option.some.inj hcall'
        exact ⟨hopened, by simpa [setLastStreamToken, withToken, withCall, hhandshake] using hcarries⟩ }

end Ok

end FirestoreClient

end Harusali.Firestore
