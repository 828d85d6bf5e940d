import Harusali.Firebase.Firestore
import Mathlib.Data.List.Basic

set_option autoImplicit false

/-! # The client's mutation queues

The vendored Firestore client writes through a queue: `setData` puts a batch in the queue of the
user that is signed in, and the batch stays there, on disk, until the service has answered for
it. This file has the types of the write path and the queue as `LocalStore` uses it. The rows of
all users are in one list, in the order they were made, in which batch ids grow
(`Persistence.Ordered`). -/

namespace Harusali.Firestore

abbrev ByteString := List UInt8

/-! ## Users and errors -/

/-- `auth::User`. Uids are not empty, so that no user shares the queue of the unauthenticated one. -/
inductive User where
  | unauthenticated
  | authenticated (uid : Uid) (nonempty : uid ≠ "")
  deriving DecidableEq

namespace User

/-- `User::FromUid`. -/
def fromUid : Option Uid → User
  | none => .unauthenticated
  | some uid => if h : uid = "" then .unauthenticated else .authenticated uid h

/-- The `user_id_` of the user's mutation queue. -/
def userId : User → String
  | .unauthenticated => ""
  | .authenticated uid _ => uid

theorem userId_injective : Function.Injective userId := by
  intro u v h
  cases u with
  | unauthenticated =>
      cases v with
      | unauthenticated => rfl
      | authenticated uid hne => exact absurd h.symm hne
  | authenticated uid hne =>
      cases v with
      | unauthenticated => exact absurd h hne
      | authenticated uid' hne' =>
          obtain rfl : uid = uid' := h
          rfl

end User

/-- The codes of `firestore_errors.h`. -/
inductive Error where
  | ok | cancelled | unknown | invalidArgument | deadlineExceeded | notFound | alreadyExists
  | permissionDenied | resourceExhausted | failedPrecondition | aborted | outOfRange
  | unimplemented | internal | unavailable | dataLoss | unauthenticated
  deriving DecidableEq, Repr

structure Status where
  code : Error
  message : String := ""
  deriving DecidableEq, Repr

namespace Status

/-- `Status::OK()`. -/
def OK : Status := { code := .ok }

def ok (status : Status) : Bool := status.code = .ok

end Status

/-- `HARD_ASSERT`: the process ends with this message unless the condition holds. -/
def hardAssert (condition : Prop) [Decidable condition] (message : String) : Except String Unit :=
  if condition then .ok () else .error message

@[simp] theorem hardAssert_of {condition : Prop} [Decidable condition] (h : condition)
    (message : String) : hardAssert condition message = .ok () :=
  if_pos h

/-! ## Batches -/

def kBatchIdUnknown : Int := -1

/-- A `SetMutation` without precondition, the only kind `setData` makes when it does not merge. -/
structure SetMutation where
  key : DocumentPath
  value : DocumentData
  deriving DecidableEq, Repr

/-- `write` numbers the calls of `WriteMutations` for the observer; no function reads it. -/
structure MutationBatch where
  batchId : Int
  mutations : List SetMutation
  write : Nat
  deriving DecidableEq, Repr

/-! ## The tables on disk -/

/-- What is on disk: the rows of the table `mutation` with the user id each belongs to, and by user
    id the stream token in the table `mutation_queue`. -/
structure Persistence where
  mutation : List (String × MutationBatch)
  mutationQueue : String → ByteString

namespace Persistence

/-- `LoadNextBatchIdFromDb`: one more than the largest batch id of any user. -/
def loadNextBatchIdFromDb (db : Persistence) : Int :=
  (db.mutation.map fun row => row.2.batchId).foldl max 0 + 1

/-- `AllMutationBatches` of the queue with this user id. -/
def allMutationBatches (db : Persistence) (userId : String) : List MutationBatch :=
  (db.mutation.filter fun row => row.1 = userId).map Prod.snd

/-- `NextMutationBatchAfterBatchId`. -/
def nextMutationBatchAfterBatchId (db : Persistence) (userId : String) (batchId : Int) :
    Option MutationBatch :=
  let nextBatchId := batchId + 1
  (db.allMutationBatches userId).find? fun batch => nextBatchId ≤ batch.batchId

/-- `LookupMutationBatch`. -/
def lookupMutationBatch (db : Persistence) (userId : String) (batchId : Int) :
    Option MutationBatch :=
  (db.allMutationBatches userId).find? fun batch => batch.batchId = batchId

/-- `AddMutationBatch`, with the id the queue hands out. -/
def addMutationBatch (db : Persistence) (userId : String) (batch : MutationBatch) : Persistence :=
  { db with mutation := db.mutation ++ [(userId, batch)] }

/-- `RemoveMutationBatch`. -/
def removeMutationBatch (db : Persistence) (userId : String) (batch : MutationBatch) :
    Except String Persistence := do
  hardAssert (db.lookupMutationBatch userId batch.batchId ≠ none) "Mutation batch did not exist"
  pure { db with
    mutation := db.mutation.filter fun row => ¬ (row.1 = userId ∧ row.2.batchId = batch.batchId) }

/-- `SetLastStreamToken`, as far as it reaches the disk. -/
def setLastStreamToken (db : Persistence) (userId : String) (streamToken : ByteString) :
    Persistence :=
  { db with mutationQueue := Function.update db.mutationQueue userId streamToken }

@[simp] theorem mutation_setLastStreamToken (db : Persistence) (userId : String)
    (streamToken : ByteString) : (db.setLastStreamToken userId streamToken).mutation = db.mutation :=
  rfl

@[simp] theorem allMutationBatches_setLastStreamToken (db : Persistence) (userId userId' : String)
    (streamToken : ByteString) :
    (db.setLastStreamToken userId streamToken).allMutationBatches userId'
      = db.allMutationBatches userId' :=
  rfl

theorem mem_allMutationBatches {db : Persistence} {userId : String} {batch : MutationBatch} :
    batch ∈ db.allMutationBatches userId ↔ (userId, batch) ∈ db.mutation := by
  simp [allMutationBatches]

/-! ## Batch ids grow along the table -/

/-- Batch ids are positive and grow along the table. -/
structure Ordered (db : Persistence) : Prop where
  batchId : db.mutation.Pairwise fun row row' => row.2.batchId < row'.2.batchId
  positive : ∀ row ∈ db.mutation, 0 < row.2.batchId

theorem Ordered.queue {db : Persistence} (h : db.Ordered) (userId : String) :
    (db.allMutationBatches userId).Pairwise fun batch batch' => batch.batchId < batch'.batchId := by
  rw [allMutationBatches, List.pairwise_map]
  exact h.batchId.filter _

theorem le_foldl_max (l : List Int) : ∀ start, start ≤ l.foldl max start ∧
    ∀ x ∈ l, x ≤ l.foldl max start := by
  induction l with
  | nil => simp
  | cons a l ih =>
      intro start
      obtain ⟨hstart, hl⟩ := ih (max start a)
      simp only [List.foldl_cons, List.mem_cons]
      refine ⟨by omega, fun x hx => ?_⟩
      rcases hx with rfl | hx
      · omega
      · exact hl x hx

/-- Every row is below the id a freshly started queue hands out next. -/
theorem lt_loadNextBatchIdFromDb (db : Persistence) :
    0 < db.loadNextBatchIdFromDb ∧
      ∀ row ∈ db.mutation, row.2.batchId < db.loadNextBatchIdFromDb := by
  obtain ⟨hstart, hle⟩ := le_foldl_max (db.mutation.map fun row => row.2.batchId) 0
  unfold loadNextBatchIdFromDb
  refine ⟨by omega, fun row hrow => ?_⟩
  have := hle row.2.batchId (List.mem_map_of_mem hrow)
  omega

theorem Ordered.setLastStreamToken {db : Persistence} (h : db.Ordered) (userId : String)
    (streamToken : ByteString) : (db.setLastStreamToken userId streamToken).Ordered :=
  ⟨h.batchId, h.positive⟩

/-- A batch with an id above all others keeps the order. -/
theorem Ordered.addMutationBatch {db : Persistence} (h : db.Ordered) {userId : String}
    {batch : MutationBatch} (hpos : 0 < batch.batchId)
    (hnew : ∀ row ∈ db.mutation, row.2.batchId < batch.batchId) :
    (db.addMutationBatch userId batch).Ordered := by
  refine ⟨?_, ?_⟩
  · refine List.pairwise_append.2 ⟨h.batchId, List.pairwise_singleton _ _, ?_⟩
    intro row hrow row' hrow'
    rw [List.mem_singleton.1 hrow']
    exact hnew row hrow
  · intro row hrow
    rcases List.mem_append.1 hrow with hrow | hrow
    · exact h.positive row hrow
    · rw [List.mem_singleton.1 hrow]
      exact hpos

/-! ## The queue operations, in terms of the queue -/

theorem allMutationBatches_addMutationBatch (db : Persistence) (userId userId' : String)
    (batch : MutationBatch) :
    (db.addMutationBatch userId batch).allMutationBatches userId'
      = db.allMutationBatches userId' ++ if userId = userId' then [batch] else [] := by
  rw [allMutationBatches, addMutationBatch, List.filter_append, List.map_append]
  by_cases huser : userId = userId' <;> simp [allMutationBatches, huser]

/-- The next batch after the last of a prefix of the queue is the one that follows it. -/
theorem nextMutationBatchAfterBatchId_eq {db : Persistence} {userId : String}
    {front rest : List MutationBatch} (hqueue : db.allMutationBatches userId = front ++ rest)
    {batchId : Int} (hfront : ∀ batch ∈ front, batch.batchId ≤ batchId)
    (hrest : ∀ batch ∈ rest, batchId < batch.batchId) :
    db.nextMutationBatchAfterBatchId userId batchId = rest.head? := by
  have hnone : front.find? (fun batch => decide (batchId + 1 ≤ batch.batchId)) = none := by
    refine List.find?_eq_none.2 fun batch hbatch => ?_
    have := hfront batch hbatch
    simp only [decide_eq_true_eq]
    omega
  rw [Persistence.nextMutationBatchAfterBatchId, hqueue, List.find?_append, hnone]
  cases rest with
  | nil => rfl
  | cons batch rest =>
      have := hrest batch (List.mem_cons_self ..)
      rw [List.find?_cons_of_pos (by simpa using by omega)]
      rfl

/-- The next batch is the one with the least id above the given one. -/
theorem Ordered.nextMutationBatchAfterBatchId {db : Persistence} (h : db.Ordered) {userId : String}
    {batchId : Int} {batch : MutationBatch} (hbatch : batch ∈ db.allMutationBatches userId)
    (hlt : batchId < batch.batchId)
    (hleast : ∀ other ∈ db.allMutationBatches userId, batchId < other.batchId →
      batch.batchId ≤ other.batchId) :
    db.nextMutationBatchAfterBatchId userId batchId = some batch := by
  obtain ⟨front, rest, hqueue⟩ := List.append_of_mem hbatch
  have hsorted := h.queue userId
  rw [hqueue] at hsorted hleast
  obtain ⟨-, hbehind, hacross⟩ := List.pairwise_append.1 hsorted
  refine nextMutationBatchAfterBatchId_eq hqueue (fun other hother => ?_) fun other hother => ?_
  · have hbefore := hacross other hother batch (List.mem_cons_self ..)
    have hle := hleast other (List.mem_append_left _ hother)
    omega
  · rcases List.mem_cons.1 hother with rfl | hother
    · exact hlt
    · exact Int.lt_trans hlt ((List.pairwise_cons.1 hbehind).1 other hother)

theorem nextMutationBatchAfterBatchId_eq_none {db : Persistence} {userId : String} {batchId : Int}
    (h : ∀ batch ∈ db.allMutationBatches userId, ¬ batchId < batch.batchId) :
    db.nextMutationBatchAfterBatchId userId batchId = none := by
  refine List.find?_eq_none.2 fun batch hbatch hle => h batch hbatch ?_
  exact Int.lt_of_add_one_le (of_decide_eq_true hle)

/-- In an ordered table the row of an id is the only one. -/
theorem Ordered.eq_of_batchId {db : Persistence} (h : db.Ordered) {row row' : String × MutationBatch}
    (hrow : row ∈ db.mutation) (hrow' : row' ∈ db.mutation)
    (heq : row.2.batchId = row'.2.batchId) : row = row' := by
  by_contra hne
  rcases List.pairwise_iff_getElem.1 h.batchId with hlt
  obtain ⟨i, hi, rfl⟩ := List.mem_iff_getElem.1 hrow
  obtain ⟨j, hj, rfl⟩ := List.mem_iff_getElem.1 hrow'
  rcases Nat.lt_trichotomy i j with hij | rfl | hij
  · have := hlt i j hi hj hij
    omega
  · exact hne rfl
  · have := hlt j i hj hi hij
    omega

theorem Ordered.lookupMutationBatch {db : Persistence} (h : db.Ordered) {userId : String}
    {batch : MutationBatch} (hmem : batch ∈ db.allMutationBatches userId) :
    db.lookupMutationBatch userId batch.batchId = some batch := by
  rw [Persistence.lookupMutationBatch]
  cases hfind : (db.allMutationBatches userId).find? fun b => decide (b.batchId = batch.batchId) with
  | none =>
      have := List.find?_eq_none.1 hfind batch hmem
      simp at this
  | some found =>
      have hid : found.batchId = batch.batchId := by simpa using List.find?_some hfind
      have hfound : (userId, found) ∈ db.mutation :=
        mem_allMutationBatches.1 (List.mem_of_find?_eq_some hfind)
      have heq := h.eq_of_batchId hfound (mem_allMutationBatches.1 hmem) hid
      rw [(Prod.mk.inj heq).2]

/-- The table without one batch of one queue. -/
def without (db : Persistence) (userId : String) (batch : MutationBatch) : Persistence :=
  { db with
    mutation := db.mutation.filter fun row => ¬ (row.1 = userId ∧ row.2.batchId = batch.batchId) }

theorem Ordered.removeMutationBatch {db : Persistence} (h : db.Ordered) {userId : String}
    {batch : MutationBatch} (hmem : batch ∈ db.allMutationBatches userId) :
    db.removeMutationBatch userId batch = .ok (db.without userId batch) := by
  rw [Persistence.removeMutationBatch, hardAssert_of (by rw [h.lookupMutationBatch hmem]; simp)]
  rfl

theorem Ordered.without {db : Persistence} (h : db.Ordered) (userId : String)
    (batch : MutationBatch) : (db.without userId batch).Ordered :=
  ⟨h.batchId.filter _, fun row hrow => h.positive row (List.mem_of_mem_filter hrow)⟩

/-- Removing a batch takes its row away and no other. -/
theorem Ordered.mem_without {db : Persistence} (h : db.Ordered) {userId : String}
    {batch : MutationBatch} (hmem : batch ∈ db.allMutationBatches userId)
    {row : String × MutationBatch} :
    row ∈ (db.without userId batch).mutation ↔ row ∈ db.mutation ∧ row ≠ (userId, batch) := by
  simp only [Persistence.without, List.mem_filter, decide_eq_true_eq]
  refine and_congr_right fun hrow => not_congr ⟨fun heq => ?_, fun heq => ?_⟩
  · exact h.eq_of_batchId hrow (mem_allMutationBatches.1 hmem) heq.2
  · rw [heq]
    exact ⟨rfl, rfl⟩

/-- Removing the first batch of a queue leaves the rest of it. -/
theorem Ordered.allMutationBatches_without {db : Persistence} (h : db.Ordered) {userId : String}
    {batch : MutationBatch} {rest : List MutationBatch}
    (hqueue : db.allMutationBatches userId = batch :: rest) :
    (db.without userId batch).allMutationBatches userId = rest := by
  have hpairwise := h.queue userId
  rw [hqueue, List.pairwise_cons] at hpairwise
  have hswap : (db.without userId batch).allMutationBatches userId
      = (db.allMutationBatches userId).filter fun b => b.batchId ≠ batch.batchId := by
    simp only [allMutationBatches, Persistence.without, List.filter_filter, List.filter_map]
    congr 1
    refine List.filter_congr fun row _ => ?_
    by_cases huser : row.1 = userId <;> simp [huser]
  rw [hswap, hqueue, List.filter_cons_of_neg (by simp), List.filter_eq_self]
  intro b hb
  have := hpairwise.1 b hb
  simp only [decide_eq_true_eq]
  omega

end Persistence

end Harusali.Firestore
