import Harusali.Client.FirestoreClient

set_option autoImplicit false

/-! # Filling the write pipeline

What `FillWritePipeline` does, as one function without assertions (`refill`): the pipeline becomes
the first ten batches of the queue, the new ones among them are sent if the stream is ready for
writes, and the stream is started if there is something to send and marked idle if there is not. -/

namespace Harusali.Firestore

/-! ## The stream -/

namespace WriteStream

/-- The request for a batch. -/
def request (self : WriteStream) (batch : MutationBatch) : Request :=
  .writeMutations batch.mutations self.lastStreamToken batch.write

/-- The stream after it has sent these batches. -/
def sent (self : WriteStream) (batches : List MutationBatch) : WriteStream :=
  if batches = [] then self
  else
    { self with
      idlenessTimer := false
      grpcStream := self.grpcStream.map fun call =>
        { call with requests := call.requests ++ batches.map self.request } }

/-- Whether writes can be sent. -/
def ready (self : WriteStream) : Bool := self.isOpen && self.handshakeComplete

/-- The stream after a `Start` that has been found necessary. -/
def begun (self : WriteStream) : WriteStream :=
  match self.state with
  | .initial => { self with state := .starting }.requestCredentials
  | .error => { self with state := .backoff }
  | _ => self

/-- The stream after the pipeline has been filled up to `pipeline`. -/
def tended (self : WriteStream) (pipeline : List MutationBatch) : WriteStream :=
  if pipeline = [] then self.markIdle else self.begun

theorem start_eq {self : WriteStream} (h : self.isStarted = false) :
    self.start = .ok self.begun := by
  cases hstate : self.state <;>
    simp_all [isStarted, isOpen, start, begun, backoffAndTryRestarting, requestCredentials, pure,
      Except.pure, bind, Except.bind]

theorem begun_of_isStarted {self : WriteStream} (h : self.isStarted = true) : self.begun = self := by
  cases hstate : self.state <;> simp_all [isStarted, isOpen, begun]

theorem writeMutations_eq {self : WriteStream} (h : self.ready = true) (batch : MutationBatch) :
    self.writeMutations batch = .ok (self.sent [batch]) := by
  obtain ⟨hopen, hhandshake⟩ := Bool.and_eq_true_iff.1 h
  simp [writeMutations, write, hopen, hhandshake, sent, request, Call.send, bind, Except.bind, pure,
    Except.pure]

@[simp] theorem sent_nil (self : WriteStream) : self.sent [] = self := rfl

theorem ready_sent (self : WriteStream) (batches : List MutationBatch) :
    (self.sent batches).ready = self.ready := by
  unfold sent
  split <;> rfl

theorem sent_cons (self : WriteStream) (batch : MutationBatch) (batches : List MutationBatch) :
    (self.sent [batch]).sent batches = self.sent (batch :: batches) := by
  cases hcall : self.grpcStream <;> cases batches <;> simp [sent, request, hcall]

end WriteStream

namespace FirestoreClient

/-- The queue of the current user. -/
def queue (c : FirestoreClient) : List MutationBatch :=
  c.persistence.allMutationBatches c.mutationQueue.userId

/-- The client after `FillWritePipeline`. -/
def refill (c : FirestoreClient) : FirestoreClient :=
  let pipeline := c.queue.take kMaxPendingWrites
  let new := pipeline.drop c.writePipeline.length
  { c with
    writePipeline := pipeline
    writeStream :=
      (if c.writeStream.ready then c.writeStream.sent new else c.writeStream).tended pipeline }

/-! ## `FillWritePipeline` is `refill` -/

theorem sendAll_eq (batches : List MutationBatch) {ws : WriteStream} (h : ws.ready = true) :
    sendAll batches ws = .ok (ws.sent batches) := by
  induction batches generalizing ws with
  | nil => rfl
  | cons batch batches ih =>
      have hready : (ws.sent [batch]).ready = true := by rw [WriteStream.ready_sent, h]
      rw [sendAll, WriteStream.writeMutations_eq h]
      exact (ih hready).trans (congrArg Except.ok (ws.sent_cons batch batches))

/-- The stream is started where it has to be. -/
theorem ensureStarted_eq {c : FirestoreClient} (henabled : c.isNetworkEnabled = true)
    (hne : c.writePipeline ≠ []) :
    (if c.shouldStartWriteStream = true then c.startWriteStream else pure c)
      = .ok { c with writeStream := c.writeStream.begun } := by
  cases hstarted : c.writeStream.isStarted with
  | true => simp [shouldStartWriteStream, hstarted, WriteStream.begun_of_isStarted hstarted]; rfl
  | false =>
      have hshould : c.shouldStartWriteStream = true := by
        simp [shouldStartWriteStream, henabled, hstarted, hne]
      rw [if_pos hshould, startWriteStream, hardAssert_of hshould]
      simp only [WriteStream.start_eq hstarted, bind, Except.bind, pure, Except.pure]

/-- The pipeline and the stream after this many batches have been added to them. -/
def topUp (c : FirestoreClient) (batches : List MutationBatch) : FirestoreClient :=
  { c with
    writePipeline := c.writePipeline ++ batches
    writeStream := if c.writeStream.ready then c.writeStream.sent batches else c.writeStream }

theorem addToWritePipeline_eq {c : FirestoreClient} (h : c.canAddToWritePipeline = true)
    (batch : MutationBatch) : c.addToWritePipeline batch = .ok (c.topUp [batch]) := by
  rw [addToWritePipeline, hardAssert_of h]
  by_cases hready : c.writeStream.ready = true
  · have hboth : (c.writeStream.isOpen && c.writeStream.handshakeComplete) = true := hready
    simp [bind, Except.bind, pure, Except.pure, topUp, hready, hboth,
      WriteStream.writeMutations_eq hready]
  · have hboth : ¬ (c.writeStream.isOpen && c.writeStream.handshakeComplete) = true := hready
    simp only [bind, Except.bind, pure, Except.pure, topUp, hready, hboth, if_false,
      Bool.false_eq_true]

theorem topUp_topUp (c : FirestoreClient) (batch : MutationBatch) (batches : List MutationBatch) :
    (c.topUp [batch]).topUp batches = c.topUp (batch :: batches) := by
  by_cases hready : c.writeStream.ready = true
  · simp [topUp, hready, WriteStream.ready_sent, WriteStream.sent_cons]
  · simp [topUp, hready]

/-- The loop adds the batches that follow the pipeline in the queue. -/
theorem fillLoop_eq {c : FirestoreClient} {rest : List MutationBatch}
    (hordered : c.persistence.Ordered) (henabled : c.isNetworkEnabled = true)
    (hqueue : c.queue = c.writePipeline ++ rest) {n : Nat}
    (hn : n = kMaxPendingWrites - c.writePipeline.length) {last : Int}
    (hlast : ∀ batch ∈ c.writePipeline, batch.batchId ≤ last)
    (hrest : ∀ batch ∈ rest, last < batch.batchId) :
    fillLoop n last c = .ok (
      let c := c.topUp (rest.take n)
      if c.writePipeline = [] then { c with writeStream := c.writeStream.markIdle } else c) := by
  induction n generalizing c rest last with
  | zero =>
      have hne : c.writePipeline ≠ [] := by
        intro hnil
        rw [hnil] at hn
        exact absurd hn (by decide)
      simp [fillLoop, topUp, hne, pure, Except.pure]
  | succ n ih =>
      have hnext : c.persistence.nextMutationBatchAfterBatchId c.mutationQueue.userId last
          = rest.head? :=
        Persistence.nextMutationBatchAfterBatchId_eq hqueue hlast hrest
      cases rest with
      | nil =>
          simp only [fillLoop, hnext, List.head?_nil, List.take_nil, topUp, List.append_nil,
            WriteStream.sent_nil, ite_self, List.isEmpty_iff]
          rfl
      | cons batch rest =>
          have hroom : c.canAddToWritePipeline = true := by
            simp [canAddToWritePipeline, henabled]
            omega
          -- the batch just added is the last of the pipeline now, and its id is the next bound
          have hsorted := hordered.queue c.mutationQueue.userId
          rw [show c.persistence.allMutationBatches c.mutationQueue.userId
            = c.writePipeline ++ (batch :: rest) from hqueue, List.pairwise_append,
            List.pairwise_cons] at hsorted
          obtain ⟨-, ⟨hbatch, -⟩, hacross⟩ := hsorted
          have hlast' : ∀ b ∈ (c.topUp [batch]).writePipeline, b.batchId ≤ batch.batchId := by
            intro b hb
            rcases List.mem_append.1 hb with hb | hb
            · exact Int.le_of_lt (hacross b hb batch (List.mem_cons_self ..))
            · obtain rfl := List.mem_singleton.1 hb
              exact Int.le_refl _
          have hqueue' : (c.topUp [batch]).queue = (c.topUp [batch]).writePipeline ++ rest := by
            simpa [topUp, queue] using hqueue
          have hn' : n = kMaxPendingWrites - (c.topUp [batch]).writePipeline.length := by
            simp only [topUp, List.length_append, List.length_singleton]
            omega
          simp only [fillLoop, hnext, List.head?_cons, addToWritePipeline_eq hroom]
          refine (ih (c := c.topUp [batch]) hordered henabled hqueue' hn' hlast' hbatch).trans ?_
          simp only [topUp_topUp, List.take_succ_cons]
          rfl

theorem topUp_eq_take {c : FirestoreClient} {rest : List MutationBatch}
    (hqueue : c.queue = c.writePipeline ++ rest)
    (hlength : c.writePipeline.length ≤ kMaxPendingWrites) :
    c.writePipeline ++ rest.take (kMaxPendingWrites - c.writePipeline.length)
      = c.queue.take kMaxPendingWrites := by
  rw [hqueue, List.take_append, List.take_of_length_le hlength]

/-- **What filling the pipeline does**, where the pipeline is a front part of the queue and no
    longer than it may be. -/
theorem fillWritePipeline_eq {c : FirestoreClient} (hordered : c.persistence.Ordered)
    (henabled : c.isNetworkEnabled = true) {n : Nat} (hn : n ≤ kMaxPendingWrites)
    (hpipeline : c.writePipeline = c.queue.take n) : c.fillWritePipeline = .ok c.refill := by
  obtain ⟨rest, hqueue⟩ : ∃ rest, c.queue = c.writePipeline ++ rest :=
    ⟨c.queue.drop n, by rw [hpipeline, List.take_append_drop]⟩
  have hlength : c.writePipeline.length ≤ kMaxPendingWrites := by
    rw [hpipeline, List.length_take]
    omega
  have hsorted := hordered.queue c.mutationQueue.userId
  rw [show c.persistence.allMutationBatches c.mutationQueue.userId = c.writePipeline ++ rest
    from hqueue, List.pairwise_append] at hsorted
  obtain ⟨hfront, -, hacross⟩ := hsorted
  have hbounds : (∀ batch ∈ c.writePipeline, batch.batchId ≤
        (c.writePipeline.getLast?.map (·.batchId)).getD kBatchIdUnknown) ∧
      ∀ batch ∈ rest, (c.writePipeline.getLast?.map (·.batchId)).getD kBatchIdUnknown
        < batch.batchId := by
    rcases List.eq_nil_or_concat c.writePipeline with hnil | ⟨init, final, hconcat⟩
    · rw [hnil]
      refine ⟨by simp, fun batch hbatch => ?_⟩
      have hmem : batch ∈ c.queue := by rw [hqueue]; exact List.mem_append_right _ hbatch
      have hpos := hordered.positive _ (Persistence.mem_allMutationBatches.1 hmem)
      simp only [List.getLast?_nil, Option.map_none, Option.getD_none, kBatchIdUnknown]
      have : 0 < batch.batchId := hpos
      omega
    · rw [hconcat] at hfront hacross ⊢
      simp only [List.concat_eq_append] at *
      simp only [List.getLast?_concat, Option.map_some, Option.getD_some]
      refine ⟨fun batch hbatch => ?_, fun batch hbatch => ?_⟩
      · rcases List.mem_append.1 hbatch with hbatch | hbatch
        · exact Int.le_of_lt ((List.pairwise_append.1 hfront).2.2 batch hbatch final (by simp))
        · obtain rfl := List.mem_singleton.1 hbatch
          exact Int.le_refl _
      · exact hacross final (by simp) batch hbatch
  have htake := topUp_eq_take hqueue hlength
  have hnew : (c.queue.take kMaxPendingWrites).drop c.writePipeline.length
      = rest.take (kMaxPendingWrites - c.writePipeline.length) := by
    rw [← htake, List.drop_left]
  rw [fillWritePipeline, if_pos henabled,
    fillLoop_eq hordered henabled hqueue rfl hbounds.1 hbounds.2]
  simp only [bind, Except.bind, topUp, htake, refill, hnew, WriteStream.tended]
  by_cases hnil : c.queue.take kMaxPendingWrites = []
  · simp [hnil, shouldStartWriteStream, pure, Except.pure]
  · rw [if_neg hnil, if_neg hnil]
    exact ensureStarted_eq (c := { c with writePipeline := _, writeStream := _ }) henabled hnil

end FirestoreClient

end Harusali.Firestore
