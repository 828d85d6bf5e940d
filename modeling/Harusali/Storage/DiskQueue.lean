import Harusali.Client.FirestoreClient
import Harusali.Storage.NextBatchId

set_option autoImplicit false

/-! # The queue on disk

The operations of `LevelDbMutationQueue` on the rows of the store, through the transaction's view of
them, and that they agree with the table of batches the client is modelled on
(`Client.MutationQueue`). `Stores` ties the two: the rows of `mutation` are the batches, those of
`document_mutation` their index by document, and that of `mutation_queue` has the stream token. The
messages in the rows are kept as values, not as bytes. -/

namespace Harusali.Firestore

/-- The path of a document key. -/
def resourcePath (path : DocumentPath) : ResourcePath :=
  [bytesOf path.collection, bytesOf path.document]

/-- What a row holds. -/
inductive Value where
  | mutationBatch (batch : MutationBatch)
  /-- `empty_buffer`, in the index. -/
  | emptyBuffer
  | mutationQueue (lastStreamToken : ByteString)
  | other (bytes : ByteString)
  deriving DecidableEq

abbrev Disk := Table ByteString Value

namespace LevelDbMutationQueue

/-- `ParseMutationBatch`. -/
def parseMutationBatch : Value → Except String MutationBatch
  | .mutationBatch batch => pure batch
  | _ => .error "MutationBatch proto failed to parse"

/-- The keys of the rows of the index for a batch, one a mutation. -/
def documentMutationKeys (userId : String) (batch : MutationBatch) :
    Except String (List ByteString) :=
  batch.mutations.mapM fun mutation =>
    LevelDbDocumentMutationKey.key (bytesOf userId) (resourcePath mutation.key) batch.batchId

/-- `AddMutationBatch` of a batch that has its id. -/
def addMutationBatch (db : Disk) (userId : String) (batch : MutationBatch) : Except String Disk := do
  let key ← LevelDbMutationKey.key (bytesOf userId) batch.batchId
  let db := db.put key (.mutationBatch batch)
  let keys ← documentMutationKeys userId batch
  pure (keys.foldl (fun db key => db.put key .emptyBuffer) db)

/-- `RemoveMutationBatch`. -/
def removeMutationBatch (db : Disk) (userId : String) (batch : MutationBatch) :
    Except String Disk := do
  let key ← LevelDbMutationKey.key (bytesOf userId) batch.batchId
  match (db.seek key).row? with
  | none => .error "Mutation batch did not exist"
  | some found =>
      hardAssert (key = found.1) "Mutation batch not found"
      let db := db.erase key
      let keys ← documentMutationKeys userId batch
      pure (keys.foldl (fun db key => db.erase key) db)

/-- `LookupMutationBatch`. -/
def lookupMutationBatch (db : Disk) (userId : String) (batchId : Int) :
    Except String (Option MutationBatch) := do
  let key ← LevelDbMutationKey.key (bytesOf userId) batchId
  match db.get key with
  | none => pure none
  | some value => do
      let batch ← parseMutationBatch value
      pure (some batch)

/-- What `NextMutationBatchAfterBatchId` makes of the row it finds. -/
def nextRow (userId : String) (nextBatchId : Int) (row : ByteString × Value) :
    Except String (Option MutationBatch) := do
  match ← LevelDbMutationKey.decode row.1 with
  | none => pure none
  | some (rowUserId, rowBatchId) =>
      if rowUserId ≠ bytesOf userId then pure none
      else do
        hardAssert (nextBatchId ≤ rowBatchId) "Should have found mutation after next_batch_id"
        let batch ← parseMutationBatch row.2
        pure (some batch)

/-- `NextMutationBatchAfterBatchId`. -/
def nextMutationBatchAfterBatchId (db : Disk) (userId : String) (batchId : Int) :
    Except String (Option MutationBatch) := do
  let nextBatchId := batchId + 1
  let key ← LevelDbMutationKey.key (bytesOf userId) nextBatchId
  match (db.seek key).row? with
  | none => pure none
  | some row => nextRow userId nextBatchId row

/-- `MetadataForKey`: the stream token of the metadata, which is empty if there is no row. -/
def metadataForKey (db : Disk) (userId : String) : Except String ByteString := do
  let key ← LevelDbMutationQueueKey.key (bytesOf userId)
  match db.get key with
  | none => pure []
  | some (.mutationQueue token) => pure token
  | some _ => .error "MutationQueue proto failed to parse"

/-- `SetLastStreamToken`. -/
def setLastStreamToken (db : Disk) (userId : String) (streamToken : ByteString) :
    Except String Disk := do
  let key ← LevelDbMutationQueueKey.key (bytesOf userId)
  pure (db.put key (.mutationQueue streamToken))

/-! ## What the disk stores -/

/-- The rows for the batches of the client's table, and the metadata of its queues. -/
structure Stores (disk : Disk) (db : Persistence) : Prop where
  table : ∀ row ∈ disk.rows, ∃ tableName rest, row.1 = tableCode tableName ++ rest
  batchId : ∀ row ∈ db.mutation, IsInt32 row.2.batchId
  mutation : ∀ key value, tableCode (bytesOf kMutationsTable) <+: key →
    ((key, value) ∈ disk.rows ↔ ∃ row ∈ db.mutation,
      key = mutationKey (bytesOf row.1) row.2.batchId ∧ value = .mutationBatch row.2)
  document : ∀ key value, tableCode (bytesOf kDocumentMutationsTable) <+: key →
    ((key, value) ∈ disk.rows ↔ value = .emptyBuffer ∧ ∃ row ∈ db.mutation,
      ∃ mutation ∈ row.2.mutations,
        key = documentMutationKey (bytesOf row.1) (resourcePath mutation.key) row.2.batchId)
  token : ∀ userId, metadataForKey disk userId = .ok (db.mutationQueue userId)

theorem Stores.keysOk {disk : Disk} {db : Persistence} (h : Stores disk db) : KeysOk disk where
  table := h.table
  mutation row hrow hbegins := by
    obtain ⟨row', hrow', hkey, -⟩ := (h.mutation row.1 row.2 hbegins).1 hrow
    exact ⟨_, _, h.batchId row' hrow', hkey⟩

/-- The row of a batch. -/
theorem Stores.mem_iff {disk : Disk} {db : Persistence} (h : Stores disk db) (userId : String)
    {batchId : Int} (hbatchId : IsInt32 batchId) (value : Value) :
    (mutationKey (bytesOf userId) batchId, value) ∈ disk.rows ↔
      ∃ batch ∈ db.allMutationBatches userId, batch.batchId = batchId ∧
        value = .mutationBatch batch := by
  rw [h.mutation _ _ (tableCode_begins _ _)]
  constructor
  · rintro ⟨⟨userId', batch⟩, hrow, hkey, rfl⟩
    obtain ⟨huser, rfl⟩ := mutationKey_inj hbatchId (h.batchId _ hrow) hkey
    obtain rfl := bytesOf_injective huser
    exact ⟨batch, Persistence.mem_allMutationBatches.2 hrow, rfl, rfl⟩
  · rintro ⟨batch, hbatch, rfl, rfl⟩
    exact ⟨(userId, batch), Persistence.mem_allMutationBatches.1 hbatch, rfl, rfl⟩

/-- The row of a batch further on in the queue stands behind the key that is sought. -/
theorem Stores.mem_onward {disk : Disk} {db : Persistence} (h : Stores disk db) {userId : String}
    {batchId : Int} (hnext : IsInt32 (batchId + 1)) {batch : MutationBatch}
    (hbatch : batch ∈ db.allMutationBatches userId) (hlt : batchId < batch.batchId) :
    (mutationKey (bytesOf userId) batch.batchId, .mutationBatch batch) ∈
      disk.onward (mutationKey (bytesOf userId) (batchId + 1)) := by
  have hvalid : IsInt32 batch.batchId := h.batchId _ (Persistence.mem_allMutationBatches.1 hbatch)
  exact Table.mem_onward.2 ⟨(h.mem_iff userId hvalid _).2 ⟨batch, hbatch, rfl, rfl⟩,
    (mutationKey_le_iff hnext hvalid).2 (Or.inr ⟨rfl, hlt⟩)⟩

section First

variable {disk : Disk} {db : Persistence} {userId : String} {batchId : Int} {first : ByteString × Value}

/-- The first row that is found is not behind that of a batch further on. -/
theorem Stores.first_le (h : Stores disk db) (hnext : IsInt32 (batchId + 1))
    (hfirst : (disk.onward (mutationKey (bytesOf userId) (batchId + 1))).head? = some first)
    {batch : MutationBatch} (hbatch : batch ∈ db.allMutationBatches userId)
    (hlt : batchId < batch.batchId) :
    first.1 ≤ mutationKey (bytesOf userId) batch.batchId :=
  Table.le_of_head? hfirst (h.mem_onward hnext hbatch hlt)

/-- A first row of another table leaves no batch further on. -/
theorem Stores.none_of_table (h : Stores disk db) (hnext : IsInt32 (batchId + 1))
    (hfirst : (disk.onward (mutationKey (bytesOf userId) (batchId + 1))).head? = some first)
    (hout : ¬ tableCode (bytesOf kMutationsTable) <+: first.1) :
    db.nextMutationBatchAfterBatchId userId batchId = none := by
  refine Persistence.nextMutationBatchAfterBatchId_eq_none fun batch hbatch hlt => ?_
  have hle := h.first_le hnext hfirst hbatch hlt
  have hge := (Table.mem_onward.1 (List.mem_of_mem_head? hfirst)).2
  obtain ⟨rest, hrest⟩ := tableCode_begins (bytesOf userId) batch.batchId
  obtain ⟨rest', hrest'⟩ := tableCode_begins (bytesOf userId) (batchId + 1)
  refine hout (begins_of_between (r := rest) ?_ ?_)
  · rw [← hrest'] at hge
    exact (le_append _ _).trans hge
  · rw [hrest]
    exact hle

/-- So does a first row of another user. -/
theorem Stores.none_of_user (h : Stores disk db) (hnext : IsInt32 (batchId + 1))
    (hfirst : (disk.onward (mutationKey (bytesOf userId) (batchId + 1))).head? = some first)
    {user : ByteString} {batchId' : Int} (hbatchId' : IsInt32 batchId')
    (hkey : first.1 = mutationKey user batchId') (huser : user ≠ bytesOf userId) :
    db.nextMutationBatchAfterBatchId userId batchId = none := by
  refine Persistence.nextMutationBatchAfterBatchId_eq_none fun batch hbatch hlt => ?_
  have hvalid : IsInt32 batch.batchId := h.batchId _ (Persistence.mem_allMutationBatches.1 hbatch)
  have hle := h.first_le hnext hfirst hbatch hlt
  have hge := (Table.mem_onward.1 (List.mem_of_mem_head? hfirst)).2
  rw [hkey] at hle hge
  rcases (mutationKey_le_iff hnext hbatchId').1 hge with hbelow | ⟨heq, -⟩
  · rcases (mutationKey_le_iff hbatchId' hvalid).1 hle with habove | ⟨heq, -⟩
    · exact lt_asymm hbelow habove
    · exact huser heq
  · exact huser heq.symm

/-- A first row of the user is that of the next batch. -/
theorem Stores.some_of_user (h : Stores disk db) (hordered : db.Ordered)
    (hnext : IsInt32 (batchId + 1))
    (hfirst : (disk.onward (mutationKey (bytesOf userId) (batchId + 1))).head? = some first)
    {batchId' : Int} (hbatchId' : IsInt32 batchId')
    (hkey : first.1 = mutationKey (bytesOf userId) batchId') :
    batchId + 1 ≤ batchId' ∧ ∃ batch, first.2 = .mutationBatch batch ∧
      db.nextMutationBatchAfterBatchId userId batchId = some batch := by
  have hin := Table.mem_onward.1 (List.mem_of_mem_head? hfirst)
  have hrow : (mutationKey (bytesOf userId) batchId', first.2) ∈ disk.rows := by
    rw [← hkey]
    exact hin.1
  obtain ⟨batch, hbatch, rfl, hvalue⟩ := (h.mem_iff userId hbatchId' _).1 hrow
  have hlt : batchId + 1 ≤ batch.batchId := by
    rcases (mutationKey_le_iff hnext hbatchId').1 (hkey ▸ hin.2) with hbelow | ⟨-, hle⟩
    · exact absurd hbelow (lt_irrefl _)
    · exact hle
  refine ⟨hlt, batch, hvalue, hordered.nextMutationBatchAfterBatchId hbatch hlt ?_⟩
  intro other hother habove
  have hvalid : IsInt32 other.batchId := h.batchId _ (Persistence.mem_allMutationBatches.1 hother)
  have hle := h.first_le hnext hfirst hother habove
  rw [hkey] at hle
  rcases (mutationKey_le_iff hbatchId' hvalid).1 hle with hbelow | ⟨-, hle⟩
  · exact absurd hbelow (lt_irrefl _)
  · exact hle

end First

/-- The next batch on disk is the next one of the queue: a row of another user or table means that
    there is none. -/
theorem nextMutationBatchAfterBatchId_eq {disk : Disk} {db : Persistence} (h : Stores disk db)
    (hordered : db.Ordered) (userId : String) {batchId : Int} (hnext : IsInt32 (batchId + 1)) :
    nextMutationBatchAfterBatchId disk userId batchId
      = .ok (db.nextMutationBatchAfterBatchId userId batchId) := by
  rw [nextMutationBatchAfterBatchId, LevelDbMutationKey.key_eq _ hnext]
  refine bind_eq_ok.2 ⟨_, rfl, ?_⟩
  rw [Table.row?_seek]
  cases hfirst : (disk.onward (mutationKey (bytesOf userId) (batchId + 1))).head? with
  | none =>
      rw [Persistence.nextMutationBatchAfterBatchId_eq_none fun batch hbatch hlt => ?_]
      · rfl
      · have honward := h.mem_onward hnext hbatch hlt
        rw [List.head?_eq_none_iff.1 hfirst] at honward
        exact absurd honward List.not_mem_nil
  | some first =>
      have hin := Table.mem_onward.1 (List.mem_of_mem_head? hfirst)
      change nextRow userId (batchId + 1) first = _
      rcases h.keysOk.decode hin.1 with ⟨user, batchId', hbatchId', hkey, hdecode⟩ | ⟨hout, hdecode⟩
      · rw [nextRow, hdecode]
        by_cases huser : user = bytesOf userId
        · subst huser
          obtain ⟨hle, batch, hvalue, hbatch⟩ := h.some_of_user hordered hnext hfirst hbatchId' hkey
          rw [hbatch, hvalue]
          change (if bytesOf userId ≠ bytesOf userId then pure none else _) = _
          rw [if_neg (not_not.2 rfl), hardAssert_of hle]
          rfl
        · rw [h.none_of_user hnext hfirst hbatchId' hkey huser]
          exact if_pos huser
      · rw [nextRow, hdecode, h.none_of_table hnext hfirst hout]
        rfl

/-! ## Which table a key belongs to -/

theorem tableCode_begins_iff {tableName tableName' rest : ByteString} :
    tableCode tableName <+: tableCode tableName' ++ rest ↔ tableName = tableName' := by
  refine ⟨(stringComponent_monotone .tableName).eq_of_begins, ?_⟩
  rintro rfl
  exact List.prefix_append _ _

theorem mutationKey_table (userId : ByteString) (batchId : Int) :
    ∃ rest, mutationKey userId batchId = tableCode (bytesOf kMutationsTable) ++ rest := by
  obtain ⟨rest, hrest⟩ := tableCode_begins userId batchId
  exact ⟨rest, hrest.symm⟩

theorem documentMutationKey_table (userId : ByteString) (path : ResourcePath) (batchId : Int) :
    ∃ rest, documentMutationKey userId path batchId
      = tableCode (bytesOf kDocumentMutationsTable) ++ rest := by
  rw [documentMutationKey, userCode, List.append_assoc]
  exact ⟨_, rfl⟩

theorem mutationQueueKey_table (userId : ByteString) :
    ∃ rest, mutationQueueKey userId = tableCode (bytesOf kMutationQueuesTable) ++ rest := by
  rw [mutationQueueKey, userCode, List.append_assoc]
  exact ⟨_, rfl⟩

/-- Keys of two tables differ. -/
theorem ne_of_table {key key' rest rest' : ByteString} {tableName tableName' : String}
    (hkey : key = tableCode (bytesOf tableName) ++ rest)
    (hkey' : key' = tableCode (bytesOf tableName') ++ rest') (hne : tableName ≠ tableName') :
    key ≠ key' := by
  rintro rfl
  have hbegins : tableCode (bytesOf tableName) <+: tableCode (bytesOf tableName') ++ rest' := by
    rw [← hkey', hkey]
    exact List.prefix_append _ _
  exact hne (bytesOf_injective (tableCode_begins_iff.1 hbegins))

theorem documentMutationKey_inj {userId userId' : ByteString} {path path' : ResourcePath}
    {batchId batchId' : Int} (hbatchId : IsInt32 batchId) (hbatchId' : IsInt32 batchId')
    (h : documentMutationKey userId path batchId = documentMutationKey userId' path' batchId') :
    userId = userId' ∧ batchId = batchId' := by
  have heq : (toLex (userId, toLex (path, ⟨batchId, hbatchId⟩)) :
      ByteString ×ₗ (ResourcePath ×ₗ BatchId)) = toLex (userId', toLex (path', ⟨batchId', hbatchId'⟩)) :=
    documentMutationKey_monotone.injective h
  obtain ⟨huser, hrest⟩ := Prod.mk.inj (toLex_inj.1 heq)
  exact ⟨huser, congrArg Subtype.val (Prod.mk.inj (toLex_inj.1 hrest)).2⟩

/-! ## Adding and removing -/

/-- The keys of the rows of the index for a batch. -/
def indexKeys (userId : String) (batch : MutationBatch) : List ByteString :=
  batch.mutations.map fun mutation =>
    documentMutationKey (bytesOf userId) (resourcePath mutation.key) batch.batchId

theorem documentMutationKeys_eq (userId : String) {batch : MutationBatch}
    (hbatchId : IsInt32 batch.batchId) :
    documentMutationKeys userId batch = .ok (indexKeys userId batch) := by
  rw [documentMutationKeys, indexKeys]
  induction batch.mutations with
  | nil => rfl
  | cons mutation mutations ih =>
      rw [List.mapM_cons, LevelDbDocumentMutationKey.key_eq _ _ hbatchId, ih]
      rfl

theorem mem_indexKeys {userId : String} {batch : MutationBatch} {key : ByteString} :
    key ∈ indexKeys userId batch ↔ ∃ mutation ∈ batch.mutations,
      key = documentMutationKey (bytesOf userId) (resourcePath mutation.key) batch.batchId := by
  rw [indexKeys, List.mem_map]
  exact ⟨fun ⟨m, hm, h⟩ => ⟨m, hm, h.symm⟩, fun ⟨m, hm, h⟩ => ⟨m, hm, h.symm⟩⟩

theorem not_mem_indexKeys {userId : String} {batch : MutationBatch} {key rest : ByteString}
    {tableName : String} (hkey : key = tableCode (bytesOf tableName) ++ rest)
    (hne : tableName ≠ kDocumentMutationsTable) : key ∉ indexKeys userId batch := by
  intro hmem
  obtain ⟨mutation, -, heq⟩ := mem_indexKeys.1 hmem
  obtain ⟨rest', hrest'⟩ := documentMutationKey_table (bytesOf userId) (resourcePath mutation.key)
    batch.batchId
  exact ne_of_table hkey hrest' hne heq

/-- The metadata of a queue stays if the row of its key does. -/
theorem metadataForKey_congr {disk disk' : Disk} (userId : String)
    (h : ∀ value, (mutationQueueKey (bytesOf userId), value) ∈ disk'.rows ↔
      (mutationQueueKey (bytesOf userId), value) ∈ disk.rows) :
    metadataForKey disk' userId = metadataForKey disk userId := by
  have hget : disk'.get (mutationQueueKey (bytesOf userId))
      = disk.get (mutationQueueKey (bytesOf userId)) := by
    refine Option.ext fun value => ?_
    rw [Table.get_eq_some, Table.get_eq_some]
    exact h value
  simp only [metadataForKey, LevelDbMutationQueueKey.key_eq, bind, Except.bind, hget]

theorem exists_of_begins {tableName key : ByteString} (h : tableCode tableName <+: key) :
    ∃ rest, key = tableCode tableName ++ rest := by
  obtain ⟨rest, hrest⟩ := h
  exact ⟨rest, hrest.symm⟩

/-- Putting the rows of a batch stores the queue with the batch at its end. -/
theorem Stores.withBatch {disk : Disk} {db : Persistence} (h : Stores disk db) (userId : String)
    {batch : MutationBatch} (hbatchId : IsInt32 batch.batchId)
    (hnew : ∀ row ∈ db.mutation, row.2.batchId ≠ batch.batchId) :
    Stores ((indexKeys userId batch).foldl (fun db key => db.put key .emptyBuffer)
      (disk.put (mutationKey (bytesOf userId) batch.batchId) (.mutationBatch batch)))
      (db.addMutationBatch userId batch) := by
  obtain ⟨rest, hrest⟩ := mutationKey_table (bytesOf userId) batch.batchId
  refine ⟨?_, ?_, ?_, ?_, ?_⟩
  · intro row hrow
    rcases Table.mem_foldl_put.1 hrow with ⟨hkey, -⟩ | ⟨hrow, -⟩
    · obtain ⟨mutation, -, heq⟩ := mem_indexKeys.1 hkey
      rw [heq]
      exact ⟨_, documentMutationKey_table _ _ _⟩
    · rcases Table.mem_put.1 hrow with rfl | ⟨hrow, -⟩
      · exact ⟨_, mutationKey_table _ _⟩
      · exact h.table row hrow
  · intro row hrow
    rcases List.mem_append.1 hrow with hrow | hrow
    · exact h.batchId row hrow
    · rw [List.mem_singleton.1 hrow]
      exact hbatchId
  · intro key value hbegins
    obtain ⟨rest', hkey⟩ := exists_of_begins hbegins
    have hindex : key ∉ indexKeys userId batch := not_mem_indexKeys hkey (by decide)
    rw [Table.mem_foldl_put, Table.mem_put, h.mutation key value hbegins]
    simp only [Persistence.addMutationBatch, List.mem_append, List.mem_singleton, or_and_right,
      exists_or, exists_eq_left, hindex, false_and, false_or, not_false_eq_true, and_true,
      Prod.mk.injEq]
    rw [or_comm]
    refine or_congr_left (and_iff_left_of_imp ?_)
    rintro ⟨row, hrow, rfl, -⟩ heq
    exact hnew row hrow (mutationKey_inj (h.batchId row hrow) hbatchId heq).2
  · intro key value hbegins
    obtain ⟨rest', hkey⟩ := exists_of_begins hbegins
    have hne : key ≠ mutationKey (bytesOf userId) batch.batchId :=
      ne_of_table hkey hrest (by decide)
    rw [Table.mem_foldl_put, Table.mem_put, h.document key value hbegins]
    simp only [Persistence.addMutationBatch, List.mem_append, List.mem_singleton, or_and_right,
      exists_or, exists_eq_left, hne, ne_eq, not_false_eq_true, and_true, Prod.mk.injEq, false_and,
      false_or]
    rw [← mem_indexKeys]
    by_cases hindex : key ∈ indexKeys userId batch <;> simp [hindex]
  · intro userId'
    rw [Persistence.addMutationBatch]
    change _ = Except.ok (db.mutationQueue userId')
    rw [← h.token userId']
    refine metadataForKey_congr userId' fun value => ?_
    obtain ⟨rest', hkey⟩ := mutationQueueKey_table (bytesOf userId')
    have hindex : mutationQueueKey (bytesOf userId') ∉ indexKeys userId batch :=
      not_mem_indexKeys hkey (by decide)
    have hne := ne_of_table hkey hrest (by decide)
    rw [Table.mem_foldl_put, Table.mem_put]
    simp [hindex, hne]

/-- **Adding a batch to the queue.** -/
theorem addMutationBatch_eq {disk : Disk} {db : Persistence} (h : Stores disk db) (userId : String)
    {batch : MutationBatch} (hbatchId : IsInt32 batch.batchId)
    (hnew : ∀ row ∈ db.mutation, row.2.batchId ≠ batch.batchId) :
    ∃ disk', addMutationBatch disk userId batch = .ok disk' ∧
      Stores disk' (db.addMutationBatch userId batch) := by
  refine ⟨_, ?_, h.withBatch userId hbatchId hnew⟩
  rw [addMutationBatch, LevelDbMutationKey.key_eq _ hbatchId]
  exact bind_eq_ok.2 ⟨_, rfl, bind_eq_ok.2 ⟨_, documentMutationKeys_eq userId hbatchId, rfl⟩⟩

/-- Erasing the rows of a batch stores the queue without it. -/
theorem Stores.without {disk : Disk} {db : Persistence} (h : Stores disk db)
    (hordered : db.Ordered) {userId : String} {batch : MutationBatch}
    (hbatch : batch ∈ db.allMutationBatches userId) :
    Stores ((indexKeys userId batch).foldl (fun db key => db.erase key)
      (disk.erase (mutationKey (bytesOf userId) batch.batchId))) (db.without userId batch) := by
  have hmem := Persistence.mem_allMutationBatches.1 hbatch
  have hbatchId : IsInt32 batch.batchId := h.batchId _ hmem
  obtain ⟨rest, hrest⟩ := mutationKey_table (bytesOf userId) batch.batchId
  -- another row of the client's table has another batch id
  have hother : ∀ row ∈ db.mutation, row ≠ (userId, batch) → row.2.batchId ≠ batch.batchId :=
    fun row hrow hne heq => hne (hordered.eq_of_batchId hrow hmem heq)
  refine ⟨?_, ?_, ?_, ?_, ?_⟩
  · intro row hrow
    exact h.table row (Table.mem_erase.1 (Table.mem_foldl_erase.1 hrow).1).1
  · intro row hrow
    exact h.batchId row ((hordered.mem_without hbatch).1 hrow).1
  · intro key value hbegins
    obtain ⟨rest', hkey⟩ := exists_of_begins hbegins
    have hindex : key ∉ indexKeys userId batch := not_mem_indexKeys hkey (by decide)
    rw [Table.mem_foldl_erase, Table.mem_erase, h.mutation key value hbegins]
    simp only [hordered.mem_without hbatch, hindex, not_false_eq_true, and_true]
    constructor
    · rintro ⟨⟨row, hrow, rfl, hvalue⟩, hne⟩
      refine ⟨row, ⟨hrow, ?_⟩, rfl, hvalue⟩
      rintro rfl
      exact hne rfl
    · rintro ⟨row, ⟨hrow, hne⟩, rfl, hvalue⟩
      exact ⟨⟨row, hrow, rfl, hvalue⟩, fun heq =>
        hother row hrow hne (mutationKey_inj (h.batchId row hrow) hbatchId heq).2⟩
  · intro key value hbegins
    obtain ⟨rest', hkey⟩ := exists_of_begins hbegins
    have hneKey : key ≠ mutationKey (bytesOf userId) batch.batchId :=
      ne_of_table hkey hrest (by decide)
    rw [Table.mem_foldl_erase, Table.mem_erase, h.document key value hbegins]
    simp only [hordered.mem_without hbatch, ne_eq, hneKey, not_false_eq_true, and_true, and_assoc]
    refine and_congr_right fun _ => ?_
    constructor
    · rintro ⟨⟨row, hrow, mutation, hmutation, rfl⟩, hindex⟩
      refine ⟨row, hrow, ?_, mutation, hmutation, rfl⟩
      rintro rfl
      exact hindex (mem_indexKeys.2 ⟨mutation, hmutation, rfl⟩)
    · rintro ⟨row, hrow, hne, mutation, hmutation, rfl⟩
      refine ⟨⟨row, hrow, mutation, hmutation, rfl⟩, fun hindex => ?_⟩
      obtain ⟨mutation', -, heq⟩ := mem_indexKeys.1 hindex
      exact hother row hrow hne
        (documentMutationKey_inj (h.batchId row hrow) hbatchId heq).2
  · intro userId'
    rw [Persistence.without]
    change _ = Except.ok (db.mutationQueue userId')
    rw [← h.token userId']
    refine metadataForKey_congr userId' fun value => ?_
    obtain ⟨rest', hkey⟩ := mutationQueueKey_table (bytesOf userId')
    have hindex : mutationQueueKey (bytesOf userId') ∉ indexKeys userId batch :=
      not_mem_indexKeys hkey (by decide)
    have hne := ne_of_table hkey hrest (by decide)
    rw [Table.mem_foldl_erase, Table.mem_erase]
    simp [hindex, hne]

/-- `IsEmpty`. -/
def isEmpty (db : Disk) (userId : String) : Except String Bool := do
  let userKey ← LevelDbMutationKey.keyPrefix (bytesOf userId)
  match (db.seek userKey).row? with
  | none => pure true
  | some row => pure (decide (¬ userKey <+: row.1))

/-- `PerformConsistencyCheck`. -/
def performConsistencyCheck (db : Disk) (userId : String) : Except String Unit := do
  if ¬ (← isEmpty db userId) then pure ()
  else do
    let indexPrefix ← LevelDbDocumentMutationKey.userPrefix (bytesOf userId)
    let danglingMutationReferences :=
      (db.seek indexPrefix).rest.takeWhile fun row => indexPrefix <+: row.1
    hardAssert (danglingMutationReferences = [])
      "Document leak -- detected dangling mutation references when queue is empty."

/-- If a row begins with a string, so does the first row from the string on. -/
theorem first_begins {ν : Type} {db : Table ByteString ν} {start : ByteString}
    {row first : ByteString × ν} (hrow : row ∈ db.rows) (hbegins : start <+: row.1)
    (hfirst : (db.onward start).head? = some first) : start <+: first.1 := by
  obtain ⟨rest, hrest⟩ := hbegins
  have hle : start ≤ row.1 := by
    rw [← hrest]
    exact le_append _ _
  refine begins_of_between (r := rest)
    (Table.mem_onward.1 (List.mem_of_mem_head? hfirst)).2 ?_
  rw [hrest]
  exact Table.le_of_head? hfirst (Table.mem_onward.2 ⟨hrow, hle⟩)

theorem Stores.mem_queue {disk : Disk} {db : Persistence} (h : Stores disk db) {userId : String}
    {row : ByteString × Value} (hrow : row ∈ disk.rows)
    (hbegins : userCode kMutationsTable (bytesOf userId) <+: row.1) :
    ∃ batch, batch ∈ db.allMutationBatches userId := by
  have htable : tableCode (bytesOf kMutationsTable) <+: row.1 :=
    (List.prefix_append _ _).trans hbegins
  obtain ⟨⟨userId', batch⟩, hmem, hkey, -⟩ := (h.mutation row.1 row.2 htable).1 hrow
  rw [hkey, mutationKey] at hbegins
  obtain rfl := bytesOf_injective ((userCode_prefix_iff ..).1 hbegins)
  exact ⟨batch, Persistence.mem_allMutationBatches.2 hmem⟩

theorem isEmpty_eq {disk : Disk} {db : Persistence} (h : Stores disk db) (userId : String) :
    isEmpty disk userId = .ok (decide (db.allMutationBatches userId = [])) := by
  rw [isEmpty, LevelDbMutationKey.keyPrefix_eq]
  refine bind_eq_ok.2 ⟨_, rfl, ?_⟩
  rw [Table.row?_seek]
  have hrow : ∀ batch ∈ db.allMutationBatches userId, ∃ row ∈ disk.rows,
      userCode kMutationsTable (bytesOf userId) <+: row.1 := by
    intro batch hbatch
    have hbatchId : IsInt32 batch.batchId :=
      h.batchId _ (Persistence.mem_allMutationBatches.1 hbatch)
    exact ⟨_, (h.mem_iff userId hbatchId _).2 ⟨batch, hbatch, rfl, rfl⟩, List.prefix_append _ _⟩
  cases hfirst : (disk.onward (userCode kMutationsTable (bytesOf userId))).head? with
  | none =>
      have hempty : db.allMutationBatches userId = [] := by
        refine List.eq_nil_iff_forall_not_mem.2 fun batch hbatch => ?_
        obtain ⟨row, hin, rest, hrest⟩ := hrow batch hbatch
        have honward : row ∈ disk.onward (userCode kMutationsTable (bytesOf userId)) :=
          Table.mem_onward.2 ⟨hin, by rw [← hrest]; exact le_append _ _⟩
        rw [List.head?_eq_none_iff.1 hfirst] at honward
        exact absurd honward List.not_mem_nil
      rw [decide_eq_true hempty]
      rfl
  | some first =>
      have hin := (Table.mem_onward.1 (List.mem_of_mem_head? hfirst)).1
      refine congrArg Except.ok (decide_eq_decide.2 ⟨fun hnot => ?_, fun hempty hbegins => ?_⟩)
      · refine List.eq_nil_iff_forall_not_mem.2 fun batch hbatch => hnot ?_
        obtain ⟨row, hrowIn, hbegins⟩ := hrow batch hbatch
        exact first_begins hrowIn hbegins hfirst
      · obtain ⟨batch, hbatch⟩ := h.mem_queue hin hbegins
        rw [hempty] at hbatch
        exact absurd hbatch List.not_mem_nil

/-- Nothing is stored in no rows. -/
theorem stores_empty : Stores Table.empty { mutation := [], mutationQueue := fun _ => [] } where
  table row hrow := absurd hrow List.not_mem_nil
  batchId row hrow := absurd hrow List.not_mem_nil
  mutation key value _ :=
    iff_of_false List.not_mem_nil fun ⟨_, hrow, _⟩ => absurd hrow List.not_mem_nil
  document key value _ :=
    iff_of_false List.not_mem_nil fun ⟨_, _, hrow, _⟩ => absurd hrow List.not_mem_nil
  token userId := by
    rw [metadataForKey, LevelDbMutationQueueKey.key_eq]
    rfl

/-- **No document leaks.** A queue is found empty exactly if it is, and then no row of the index is left
    for its user: the check made after every settled write never fails. -/
theorem consistency_check_passes {disk : Disk} {db : Persistence} (h : Stores disk db)
    (userId : String) :
    isEmpty disk userId = .ok (decide (db.allMutationBatches userId = [])) ∧
      performConsistencyCheck disk userId = .ok () := by
  refine ⟨isEmpty_eq h userId, ?_⟩
  rw [performConsistencyCheck]
  refine bind_eq_ok.2 ⟨_, isEmpty_eq h userId, ?_⟩
  by_cases hempty : db.allMutationBatches userId = []
  · rw [decide_eq_true hempty, if_neg (not_not.2 rfl), LevelDbDocumentMutationKey.userPrefix_eq]
    refine bind_eq_ok.2 ⟨_, rfl, hardAssert_of ?_ _⟩
    rw [Table.rest_seek]
    cases hfirst : disk.onward (userCode kDocumentMutationsTable (bytesOf userId)) with
    | nil => rfl
    | cons first rest =>
        refine List.takeWhile_cons_of_neg fun hbegins => ?_
        have hin : first ∈ disk.rows := (Table.mem_onward.1 (hfirst ▸ List.mem_cons_self)).1
        have hbegins' : userCode kDocumentMutationsTable (bytesOf userId) <+: first.1 :=
          of_decide_eq_true hbegins
        have htable : tableCode (bytesOf kDocumentMutationsTable) <+: first.1 :=
          (List.prefix_append _ _).trans hbegins'
        obtain ⟨-, row, hrow, mutation, -, hkey⟩ := (h.document _ _ htable).1 hin
        rw [hkey, documentMutationKey] at hbegins'
        have heq := bytesOf_injective ((userCode_prefix_iff ..).1 hbegins')
        have hbatch : row.2 ∈ db.allMutationBatches userId := by
          rw [Persistence.mem_allMutationBatches, heq]
          exact hrow
        rw [hempty] at hbatch
        exact absurd hbatch List.not_mem_nil
  · rw [decide_eq_false hempty]
    rfl

def sampleBatch : MutationBatch where
  batchId := 1
  mutations := [⟨⟨"User", "u"⟩, []⟩]
  write := 0

theorem consistency_check_passes_sampleBatch :
    ∃ disk, addMutationBatch Table.empty "u" sampleBatch = .ok disk ∧
      isEmpty disk "u" = .ok false ∧ performConsistencyCheck disk "u" = .ok () ∧
      isEmpty disk "v" = .ok true ∧ performConsistencyCheck disk "v" = .ok () := by
  have hbatchId : IsInt32 sampleBatch.batchId := by decide
  obtain ⟨disk, hadded, hstores⟩ :=
    addMutationBatch_eq stores_empty "u" hbatchId fun _ hrow => absurd hrow List.not_mem_nil
  obtain ⟨hu, hcheckU⟩ := consistency_check_passes hstores "u"
  obtain ⟨hv, hcheckV⟩ := consistency_check_passes hstores "v"
  exact ⟨disk, hadded, hu, hcheckU, hv, hcheckV⟩

end LevelDbMutationQueue

end Harusali.Firestore
