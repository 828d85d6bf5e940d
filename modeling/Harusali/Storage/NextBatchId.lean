import Harusali.Storage.KeyCode
import Harusali.Table.Sorted

set_option autoImplicit false

/-! # The next batch id

When a mutation queue starts it looks for the largest batch id on disk, over the queues of all
users, by going from the end of one user's rows to the end of the next one's
(`LoadNextBatchIdFromDb`). That this sees every batch rests on the order of the rows. -/

namespace Harusali.Firestore

/-! ## `util::PrefixSuccessor` -/

/-- The loop of `PrefixSuccessor`, over the string from its end. -/
def limitLoop : ByteString → ByteString
  | [] => []
  | c :: limit => if c = 0xff then limitLoop limit else (c + 1) :: limit

def prefixSuccessor (start : ByteString) : ByteString := (limitLoop start.reverse).reverse

theorem le_append (start rest : ByteString) : start ≤ start ++ rest := by
  refine not_lt.1 fun hlt => ?_
  induction start with
  | nil => exact List.not_lt_nil _ hlt
  | cons c start ih =>
      rw [List.cons_append, List.cons_lt_cons_iff] at hlt
      exact hlt.elim (lt_irrefl c) fun h => ih h.2

/-- What lies between a string and one that begins with it begins with it. -/
theorem begins_of_between {start key r : ByteString} (hle : start ≤ key) (hge : key ≤ start ++ r) :
    start <+: key := by
  induction start generalizing key with
  | nil => exact List.nil_prefix
  | cons c start ih =>
      cases key with
      | nil => exact absurd (List.nil_lt_cons c start) (not_lt.2 hle)
      | cons d key =>
          rw [List.cons_append] at hge
          have hcd : c = d := by
            rcases lt_trichotomy c d with hlt | heq | hgt
            · exact absurd (List.cons_lt_cons_iff.2 (Or.inl hlt)) (not_lt.2 hge)
            · exact heq
            · exact absurd (List.cons_lt_cons_iff.2 (Or.inl hgt)) (not_lt.2 hle)
          subst hcd
          refine List.cons_prefix_cons.2 ⟨rfl, ih (not_lt.1 fun hlt => ?_) (not_lt.1 fun hlt => ?_)⟩
          · exact absurd (List.cons_lt_cons_iff.2 (Or.inr ⟨rfl, hlt⟩)) (not_lt.2 hle)
          · exact absurd (List.cons_lt_cons_iff.2 (Or.inr ⟨rfl, hlt⟩)) (not_lt.2 hge)

/-! ## `LoadNextBatchIdFromDb` -/

/-- What the rows of a table begin with. -/
def tableCode (tableName : ByteString) : ByteString := stringComponent .tableName tableName

namespace LevelDbMutationQueue

variable {ν : Type}

/-- `Decode` of the key a cursor stands at. -/
def decodeRow (it : Table.Cursor ByteString ν) : Except String (Option (ByteString × Int)) :=
  match it.row? with
  | none => .error "key() of an iterator that is not valid"
  | some row => LevelDbMutationKey.decode row.1

/-- The three cases of the loop: whether there are more user ids, the next one, and the cursor at the
    last row of the current user. -/
def userBoundary (it : Table.Cursor ByteString ν) (nextUserId : ByteString) :
    Except String (Bool × ByteString × Table.Cursor ByteString ν) := do
  if ¬ it.valid then pure (false, nextUserId, it.seekToLast)
  else
    match ← decodeRow it with
    | some (userId, _) => pure (true, userId, it.prev)
    | none => pure (false, nextUserId, it.prev)

/-- The loop of `LoadNextBatchIdFromDb`. Every round takes the rows of a user, which `fuel` counts. -/
def loadLoop (db : Table ByteString ν) : Nat → ByteString → Int → Except String Int
  | 0, _, maxBatchId => pure maxBatchId
  | fuel + 1, nextUserId, maxBatchId => do
      let userEnd := prefixSuccessor (← LevelDbMutationKey.keyPrefix nextUserId)
      let (moreUserIds, nextUserId, it) ← userBoundary (db.seek userEnd) nextUserId
      match ← decodeRow it with
      | none => .error "There should have been a key previous to user_end"
      | some (_, batchId) =>
          let maxBatchId := if batchId > maxBatchId then batchId else maxBatchId
          if moreUserIds then loadLoop db fuel nextUserId maxBatchId else pure maxBatchId

/-- The first user who has rows, if there is one: what `LoadNextBatchIdFromDb` starts its loop with. -/
def firstUser (db : Table ByteString ν) : Except String (Option ByteString) := do
  let it := db.seek (← LevelDbMutationKey.tablePrefix)
  if it.valid then
    match ← decodeRow it with
    | some (userId, _) => pure (some userId)
    | none => pure none
  else pure none

/-- `LoadNextBatchIdFromDb`. -/
def loadNextBatchIdFromDb (db : Table ByteString ν) : Except String Int := do
  match ← firstUser db with
  | some nextUserId =>
      let maxBatchId ← loadLoop db (db.rows.length + 1) nextUserId 0
      pure (maxBatchId + 1)
  | none => pure (0 + 1)

/-! ## The tables on disk -/

/-- Every key is one of a table, and those of the table `mutation` were made by `Key`. -/
structure KeysOk (db : Table ByteString ν) : Prop where
  table : ∀ row ∈ db.rows, ∃ tableName rest, row.1 = tableCode tableName ++ rest
  mutation : ∀ row ∈ db.rows, tableCode (bytesOf kMutationsTable) <+: row.1 →
    ∃ userId batchId, IsInt32 batchId ∧ row.1 = mutationKey userId batchId

/-- There is a row for a batch of a user. -/
def Has (db : Table ByteString ν) (userId : ByteString) (batchId : Int) : Prop :=
  IsInt32 batchId ∧ ∃ row ∈ db.rows, row.1 = mutationKey userId batchId

theorem tableCode_begins (userId : ByteString) (batchId : Int) :
    tableCode (bytesOf kMutationsTable) <+: mutationKey userId batchId := by
  rw [mutationKey, userCode, List.append_assoc]
  exact List.prefix_append _ _

theorem decode_mutationKey {userId : ByteString} {batchId : Int} (hbatchId : IsInt32 batchId) :
    LevelDbMutationKey.decode (mutationKey userId batchId) = .ok (some (userId, batchId)) :=
  (LevelDbMutationKey.decode_iff ..).2 ⟨hbatchId, List.prefix_refl _⟩

/-- The key of another table does not decode, and fails no assertion. -/
theorem decode_of_table {tableName rest : ByteString} (hne : tableName ≠ bytesOf kMutationsTable) :
    LevelDbMutationKey.decode (tableCode tableName ++ rest) = .ok none := by
  have hread := (Reader.takes_readLabeledString .tableName ⟨tableCode tableName ++ rest, true⟩
    tableName rest).2 ⟨rfl, trivial, rfl⟩
  have htable : Reader.readTableNameMatching ⟨tableCode tableName ++ rest, true⟩ kMutationsTable
      = .ok ⟨rest, false⟩ := by
    rw [Reader.readTableNameMatching]
    exact bind_eq_ok.2 ⟨_, hread, congrArg Except.ok (if_neg fun h => hne h.2)⟩
  rw [LevelDbMutationKey.decode, htable]
  rfl

/-- What `Decode` makes of a key on disk. -/
theorem KeysOk.decode {db : Table ByteString ν} (h : KeysOk db) {row : ByteString × ν}
    (hrow : row ∈ db.rows) :
    (∃ userId batchId, IsInt32 batchId ∧ row.1 = mutationKey userId batchId ∧
      LevelDbMutationKey.decode row.1 = .ok (some (userId, batchId))) ∨
    (¬ tableCode (bytesOf kMutationsTable) <+: row.1 ∧
      LevelDbMutationKey.decode row.1 = .ok none) := by
  by_cases hbegins : tableCode (bytesOf kMutationsTable) <+: row.1
  · obtain ⟨userId, batchId, hbatchId, hkey⟩ := h.mutation row hrow hbegins
    exact Or.inl ⟨userId, batchId, hbatchId, hkey, by rw [hkey]; exact decode_mutationKey hbatchId⟩
  · obtain ⟨tableName, rest, hkey⟩ := h.table row hrow
    refine Or.inr ⟨hbegins, ?_⟩
    rw [hkey]
    refine decode_of_table fun heq => hbegins ?_
    rw [hkey, heq]
    exact List.prefix_append _ _

/-! ## The rows of a user -/

theorem mutationKey_lt_iff {userId userId' : ByteString} {batchId batchId' : Int}
    (hbatchId : IsInt32 batchId) (hbatchId' : IsInt32 batchId') :
    mutationKey userId batchId < mutationKey userId' batchId' ↔
      userId < userId' ∨ userId = userId' ∧ batchId < batchId' := by
  have hlt := mutationKey_monotone.code_lt_iff
    (a := toLex (userId, ⟨batchId, hbatchId⟩)) (b := toLex (userId', ⟨batchId', hbatchId'⟩))
  exact hlt.trans Prod.Lex.toLex_lt_toLex

theorem mutationKey_le_iff {userId userId' : ByteString} {batchId batchId' : Int}
    (hbatchId : IsInt32 batchId) (hbatchId' : IsInt32 batchId') :
    mutationKey userId batchId ≤ mutationKey userId' batchId' ↔
      userId < userId' ∨ userId = userId' ∧ batchId ≤ batchId' := by
  rw [← not_lt, mutationKey_lt_iff hbatchId' hbatchId]
  rcases lt_trichotomy userId userId' with hlt | rfl | hgt
  · refine iff_of_true (fun h => ?_) (Or.inl hlt)
    exact h.elim (lt_asymm hlt) fun heq => hlt.ne' heq.1
  · simp
  · refine iff_of_false (fun h => h (Or.inl hgt)) fun h => ?_
    exact h.elim (lt_asymm hgt) fun heq => hgt.ne' heq.1

/-- A row has one key, and a key one row. -/
theorem mutationKey_inj {userId userId' : ByteString} {batchId batchId' : Int}
    (hbatchId : IsInt32 batchId) (hbatchId' : IsInt32 batchId')
    (h : mutationKey userId batchId = mutationKey userId' batchId') :
    userId = userId' ∧ batchId = batchId' := by
  have heq := (decode_mutationKey hbatchId).symm.trans ((congrArg LevelDbMutationKey.decode h).trans
    (decode_mutationKey hbatchId'))
  exact Prod.mk.inj (Option.some.inj (Except.ok.inj heq))

end LevelDbMutationQueue

end Harusali.Firestore
