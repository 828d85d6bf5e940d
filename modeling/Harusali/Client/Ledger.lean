import Harusali.Client.Delivery
import Harusali.Machine.Outbox

set_option autoImplicit false

/-! # The ledger of the writes

`Books` is what the client keeps of its writes: the rows on disk, the callbacks in memory, and
what has been settled and told. With the log of the writes it makes an outbox (`Books.outbox`), and
the two things the client does to it, filing a write and settling the first write of a queue, are
the two things an outbox does. -/

namespace Harusali.Firestore

open WriteLog (userOf)

structure Books where
  rows : List (String × MutationBatch)
  callbacks : User → Int → Option StatusCallback
  settled : List (Nat × Status)
  notified : List (StatusCallback × Status)

def FirestoreClient.books (c : FirestoreClient) : Books where
  rows := c.persistence.mutation
  callbacks := c.mutationCallbacks
  settled := c.settled
  notified := c.notified

/-- The outbox the books amount to, with this log of writes and this many of them made before the
    present process. -/
def Books.outbox (books : Books) (writes : WriteLog) (processStart : Nat) :
    Outbox User (List SetMutation) Status where
  items := writes
  waiting := books.rows.map fun row => row.2.write
  settled := books.settled
  epoch := processStart
  reported := books.notified.map fun told => (told.1.write, told.2)

structure BooksOk (writes : WriteLog) (processStart : Nat) (books : Books) : Prop where
  /-- A row is a write of the user whose queue it is in. -/
  filed : ∀ row ∈ books.rows, ∃ user,
    writes[row.2.write]? = some (user, row.2.mutations) ∧ row.1 = user.userId
  /-- The callbacks are those of the writes of this process that wait. -/
  callbacks : ∀ user batchId callback, books.callbacks user batchId = some callback ↔
    ∃ batch, (user.userId, batch) ∈ books.rows ∧ batch.batchId = batchId ∧
      processStart ≤ batch.write ∧ callback = ⟨batch.write⟩
  sound : (books.outbox writes processStart).Sound

section Books

variable {writes : WriteLog} {processStart : Nat} {c : FirestoreClient}

theorem BooksOk.user_of_row {books : Books} (h : BooksOk writes processStart books)
    {row : String × MutationBatch} (hrow : row ∈ books.rows) (user : User) :
    userOf writes row.2.write = some user ↔ row.1 = user.userId := by
  obtain ⟨owner, hmade, howner⟩ := h.filed row hrow
  rw [userOf, hmade, Option.map_some, Option.some.injEq, howner]
  exact ⟨fun heq => congrArg User.userId heq, fun heq => User.userId_injective heq⟩

/-- What waits for a user in the outbox is the queue of the user. -/
theorem BooksOk.waitingFor (h : BooksOk writes processStart c.books) (user : User) :
    (c.books.outbox writes processStart).waitingFor user
      = (c.persistence.allMutationBatches user.userId).map fun batch => batch.write := by
  show ((c.persistence.mutation.map fun row => row.2.write).filter fun write =>
    decide (userOf writes write = some user)) = _
  rw [List.filter_map, Persistence.allMutationBatches, List.map_map]
  refine congrArg (List.map _) (List.filter_congr fun row hrow => ?_)
  exact decide_eq_decide.2 (h.user_of_row hrow user)

/-- Two rows for one write are one row. -/
theorem BooksOk.eq_of_write {books : Books} (h : BooksOk writes processStart books)
    {row row' : String × MutationBatch} (hrow : row ∈ books.rows) (hrow' : row' ∈ books.rows)
    (heq : row.2.write = row'.2.write) : row = row' := by
  have hnodup : (books.rows.map fun row => row.2.write).Nodup :=
    h.sound.sorted.imp (fun hlt => Nat.ne_of_lt hlt)
  exact List.inj_on_of_nodup_map hnodup hrow hrow' heq

/-! ## Filing a write -/

theorem books_issue (c : FirestoreClient) (mutations : List SetMutation) (callback : StatusCallback) :
    (c.issue mutations callback).books.outbox (writes ++ [(c.currentUser, mutations)]) processStart
      = { (c.books.outbox writes processStart) with
          items := writes ++ [(c.currentUser, mutations)]
          waiting := (c.books.outbox writes processStart).waiting ++ [callback.write] } := by
  simp [FirestoreClient.issue, FirestoreClient.books, Books.outbox, FirestoreClient.writeLocally,
    Persistence.addMutationBatch, FirestoreClient.nextBatch]

theorem outbox_issue (c : FirestoreClient) (mutations : List SetMutation) :
    (c.issue mutations ⟨writes.length⟩).books.outbox (writes ++ [(c.currentUser, mutations)])
        processStart
      = (c.books.outbox writes processStart).put c.currentUser mutations :=
  books_issue c mutations ⟨writes.length⟩

theorem BooksOk.issue (h : BooksOk writes processStart c.books) (hqueue : c.QueueOk)
    (hstart : processStart ≤ writes.length) (mutations : List SetMutation) :
    BooksOk (writes ++ [(c.currentUser, mutations)]) processStart
      (c.issue mutations ⟨writes.length⟩).books where
  filed row hrow := by
    rcases List.mem_append.1 hrow with hrow | hrow
    · obtain ⟨user, hmade, huser⟩ := h.filed row hrow
      exact ⟨user, WriteLog.getElem?_mono (List.prefix_append _ _) hmade, huser⟩
    · rw [List.mem_singleton.1 hrow]
      exact ⟨c.currentUser, by simp [FirestoreClient.nextBatch], hqueue.userId⟩
  callbacks user batchId callback := by
    let batch := c.nextBatch mutations ⟨writes.length⟩
    have hrows : (c.issue mutations ⟨writes.length⟩).books.rows
        = c.persistence.mutation ++ [(c.mutationQueue.userId, batch)] := rfl
    -- no row has the id of the new batch yet, so there is no callback in its place
    have hnone : c.mutationCallbacks c.currentUser batch.batchId = none := by
      cases hcallback : c.mutationCallbacks c.currentUser batch.batchId with
      | none => rfl
      | some old =>
          obtain ⟨b, hb, hid, -⟩ := (h.callbacks _ _ _).1 hcallback
          have hlt : b.batchId < c.mutationQueue.nextBatchId := hqueue.below _ hb
          have heq : b.batchId = c.mutationQueue.nextBatchId := hid
          omega
    have hcallbacks : (c.issue mutations ⟨writes.length⟩).books.callbacks
        = Function.update c.mutationCallbacks c.currentUser
          (Function.update (c.mutationCallbacks c.currentUser) batch.batchId
            (some ⟨writes.length⟩)) := by
      simp only [FirestoreClient.books, FirestoreClient.issue]
      rw [show c.mutationCallbacks c.currentUser
        (c.nextBatch mutations ⟨writes.length⟩).batchId = none from hnone, Option.none_or]
    rw [hcallbacks, hrows]
    simp only [List.mem_append, List.mem_singleton, Prod.mk.injEq]
    by_cases hnew : user = c.currentUser ∧ batchId = batch.batchId
    · obtain ⟨rfl, rfl⟩ := hnew
      rw [Function.update_self, Function.update_self, Option.some.injEq]
      constructor
      · rintro rfl
        exact ⟨batch, Or.inr ⟨hqueue.userId.symm, rfl⟩, rfl, hstart, rfl⟩
      · rintro ⟨b, hb | ⟨-, rfl⟩, hid, -, rfl⟩
        · have hlt : b.batchId < c.mutationQueue.nextBatchId := hqueue.below _ hb
          have heq : b.batchId = c.mutationQueue.nextBatchId := hid
          omega
        · rfl
    · have hold : Function.update c.mutationCallbacks c.currentUser
          (Function.update (c.mutationCallbacks c.currentUser) batch.batchId (some ⟨writes.length⟩))
          user batchId = c.mutationCallbacks user batchId := by
        by_cases huser : user = c.currentUser
        · subst huser
          rw [Function.update_self, Function.update_of_ne fun hid => hnew ⟨rfl, hid⟩]
        · rw [Function.update_of_ne huser]
      rw [hold]
      refine (h.callbacks user batchId callback).trans (exists_congr fun b => and_congr_left ?_)
      rintro ⟨rfl, -⟩
      refine ⟨Or.inl, fun hb => hb.resolve_right ?_⟩
      rintro ⟨huser, rfl⟩
      exact hnew ⟨User.userId_injective (huser.trans hqueue.userId), rfl⟩
  sound := by
    rw [outbox_issue]
    exact h.sound.put c.currentUser mutations

/-! ## Settling the first write of a queue -/

theorem BooksOk.notified_settle (h : BooksOk writes processStart c.books) (hqueue : c.QueueOk)
    {batch : MutationBatch} (hmem : batch ∈ c.queue) (status : Status) :
    (c.settle batch status).notified
      = c.notified ++ if processStart ≤ batch.write then [(⟨batch.write⟩, status)] else [] := by
  have hrow : (c.currentUser.userId, batch) ∈ c.persistence.mutation := by
    rw [← hqueue.userId]
    exact Persistence.mem_allMutationBatches.1 hmem
  by_cases hstart : processStart ≤ batch.write
  · have hcallback : c.mutationCallbacks c.currentUser batch.batchId = some ⟨batch.write⟩ :=
      (h.callbacks _ _ _).2 ⟨batch, hrow, rfl, hstart, rfl⟩
    simp [FirestoreClient.settle, FirestoreClient.notifyUser, hcallback, hstart]
  · have hcallback : c.mutationCallbacks c.currentUser batch.batchId = none := by
      cases hcallback : c.mutationCallbacks c.currentUser batch.batchId with
      | none => rfl
      | some callback =>
          obtain ⟨b, hb, hid, hlate, -⟩ := (h.callbacks _ _ _).1 hcallback
          obtain rfl : b = batch :=
            (Prod.mk.inj (hqueue.ordered.eq_of_batchId hb hrow hid)).2
          exact absurd hlate hstart
    simp [FirestoreClient.settle, FirestoreClient.notifyUser, hcallback, hstart]

/-- Settling removes at most the callback of the write that is settled. -/
theorem callbacks_settle (c : FirestoreClient) (batch : MutationBatch) (status : Status) (user : User)
    (batchId : Int) :
    (c.settle batch status).mutationCallbacks user batchId
      = if user = c.currentUser ∧ batchId = batch.batchId then none
        else c.mutationCallbacks user batchId := by
  cases hcallback : c.mutationCallbacks c.currentUser batch.batchId with
  | none =>
      simp only [FirestoreClient.settle, FirestoreClient.notifyUser, hcallback]
      split_ifs with hthis
      · rw [hthis.1, hthis.2, hcallback]
      · rfl
  | some callback =>
      simp only [FirestoreClient.settle, FirestoreClient.notifyUser, hcallback]
      by_cases huser : user = c.currentUser
      · subst huser
        by_cases hid : batchId = batch.batchId <;> simp [hid]
      · simp [huser]

theorem BooksOk.outbox_settle (h : BooksOk writes processStart c.books) (hqueue : c.QueueOk)
    {batch : MutationBatch} (hmem : batch ∈ c.queue) (status : Status) :
    (c.settle batch status).books.outbox writes processStart
      = (c.books.outbox writes processStart).leave batch.write status := by
  have hrow := Persistence.mem_allMutationBatches.1 hmem
  have hwaiting : (c.persistence.without c.mutationQueue.userId batch).mutation.map
      (fun row => row.2.write)
        = (c.persistence.mutation.map fun row => row.2.write).filter fun write =>
            decide (write ≠ batch.write) := by
    rw [List.filter_map]
    refine congrArg _ (List.filter_congr fun row hrow' => decide_eq_decide.2 (not_congr ?_))
    constructor
    · rintro ⟨-, hid⟩
      rw [hqueue.ordered.eq_of_batchId hrow' hrow hid]
    · intro heq
      rw [h.eq_of_write hrow' hrow heq]
      exact ⟨rfl, rfl⟩
  have hreported : ((c.settle batch status).notified.map fun told => (told.1.write, told.2))
      = (c.notified.map fun told => (told.1.write, told.2))
        ++ if processStart ≤ batch.write then [(batch.write, status)] else [] := by
    rw [h.notified_settle hqueue hmem, List.map_append]
    by_cases hlate : processStart ≤ batch.write <;> simp [hlate]
  simp only [Books.outbox, Outbox.leave, FirestoreClient.books, hreported]
  exact congrArg (fun waiting => Outbox.mk writes waiting _ processStart _) hwaiting

theorem BooksOk.head_queue (h : BooksOk writes processStart c.books) (hqueue : c.QueueOk)
    {batch : MutationBatch} {rest : List MutationBatch} (hfirst : c.queue = batch :: rest) :
    ((c.books.outbox writes processStart).waitingFor c.currentUser).head? = some batch.write := by
  have hwaiting := h.waitingFor c.currentUser
  rw [← hqueue.userId, show c.persistence.allMutationBatches c.mutationQueue.userId = batch :: rest
    from hfirst] at hwaiting
  rw [hwaiting]
  rfl

theorem BooksOk.settle (h : BooksOk writes processStart c.books) (hqueue : c.QueueOk)
    {batch : MutationBatch} {rest : List MutationBatch} (hfirst : c.queue = batch :: rest)
    (status : Status) : BooksOk writes processStart (c.settle batch status).books := by
  have hmem : batch ∈ c.queue := by rw [hfirst]; exact List.mem_cons_self ..
  have hrow := Persistence.mem_allMutationBatches.1 hmem
  have hrows : ∀ row, row ∈ (c.settle batch status).books.rows ↔
      row ∈ c.persistence.mutation ∧ row ≠ (c.mutationQueue.userId, batch) :=
    fun row => hqueue.ordered.mem_without hmem
  refine ⟨fun row hrow' => h.filed row ((hrows row).1 hrow').1, ?_, ?_⟩
  · intro user batchId callback
    show (c.settle batch status).mutationCallbacks user batchId = some callback ↔ _
    rw [callbacks_settle]
    by_cases hthis : user = c.currentUser ∧ batchId = batch.batchId
    · rw [if_pos hthis]
      refine ⟨fun hsome => absurd hsome (by simp), ?_⟩
      rintro ⟨b, hb, hid, -, -⟩
      obtain ⟨hb, hne⟩ := (hrows _).1 hb
      exact absurd (hqueue.ordered.eq_of_batchId hb hrow (hid.trans hthis.2)) hne
    · rw [if_neg hthis]
      refine (h.callbacks user batchId callback).trans (exists_congr fun b => ?_)
      rw [hrows, and_assoc]
      refine and_congr_right fun hb => ⟨fun hrest => ⟨?_, hrest⟩, fun hrest => hrest.2⟩
      intro heq
      obtain ⟨huser, rfl⟩ := Prod.mk.inj heq
      exact hthis ⟨User.userId_injective (huser.trans hqueue.userId), hrest.1.symm⟩
  · rw [h.outbox_settle hqueue hmem status]
    exact h.sound.leave (h.head_queue hqueue hfirst) status

/-! ## A new process -/

theorem BooksOk.restart (h : BooksOk writes processStart c.books) :
    BooksOk writes writes.length
      { c.books with callbacks := fun _ _ => none } where
  filed := h.filed
  callbacks user batchId callback := by
    refine ⟨fun hsome => absurd hsome (by simp), ?_⟩
    rintro ⟨batch, hbatch, -, hlate, -⟩
    obtain ⟨owner, hmade, -⟩ := h.filed _ hbatch
    exact absurd (WriteLog.lt_of_getElem? hmade) (Nat.not_lt.2 hlate)
  sound := h.sound.restart

end Books

end Harusali.Firestore
