import Harusali.Storage.OrderedNumber

set_option autoImplicit false

/-! # Keys of the tables of mutations

A key is a row of labelled components, closed by a terminator, each written with `OrderedCode`.
`Decode` reads them back with a reader that fails once and for all; it does not look behind the
terminator. -/

namespace Harusali.Firestore

/-- A string of C++, byte by byte. -/
def bytesOf (s : String) : ByteString := s.toUTF8.data.toList

theorem bytesOf_injective : Function.Injective bytesOf := fun _ _ h =>
  String.toByteArray_inj.1 (ByteArray.ext (Array.toList_inj.1 h))

abbrev ResourcePath := List ByteString

/-- `DocumentKey::IsDocumentKey`. -/
def isDocumentKey (path : ResourcePath) : Bool := path.length % 2 = 0

def kMutationsTable : String := "mutation"
def kDocumentMutationsTable : String := "document_mutation"
def kMutationQueuesTable : String := "mutation_queue"

/-- The labels of the components that keys of mutations have. -/
inductive ComponentLabel where
  | terminator | tableName | batchId | userId | pathSegment
  deriving DecidableEq, Repr

def ComponentLabel.value : ComponentLabel → Int
  | .terminator => 0
  | .tableName => 5
  | .batchId => 10
  | .userId => 13
  | .pathSegment => 62

theorem ComponentLabel.value_injective : Function.Injective ComponentLabel.value := by
  intro l l' h
  cases l <;> cases l' <;> first | rfl | exact absurd h (by decide)

/-! ## Writing -/

namespace Writer

def writeComponentLabel (dest : ByteString) (label : ComponentLabel) : Except String ByteString :=
  OrderedCode.writeSignedNumIncreasing dest label.value

def writeLabeledInt32 (dest : ByteString) (label : ComponentLabel) (value : Int) :
    Except String ByteString := do
  let dest ← writeComponentLabel dest label
  OrderedCode.writeSignedNumIncreasing dest value

def writeLabeledString (dest : ByteString) (label : ComponentLabel) (value : ByteString) :
    Except String ByteString := do
  let dest ← writeComponentLabel dest label
  OrderedCode.writeString dest value

def writeTerminator (dest : ByteString) : Except String ByteString :=
  writeComponentLabel dest .terminator

def writeTableName (dest : ByteString) (tableName : String) : Except String ByteString :=
  writeLabeledString dest .tableName (bytesOf tableName)

def writeBatchId (dest : ByteString) (batchId : Int) : Except String ByteString :=
  writeLabeledInt32 dest .batchId batchId

def writeUserId (dest userId : ByteString) : Except String ByteString :=
  writeLabeledString dest .userId userId

def writeResourcePath (dest : ByteString) (path : ResourcePath) : Except String ByteString :=
  path.foldlM (fun dest segment => writeLabeledString dest .pathSegment segment) dest

end Writer

/-! ## Reading -/

/-- `ok` turns false when the string is not what was to be read, and stays so. -/
structure Reader where
  src : ByteString
  ok : Bool
  deriving DecidableEq, Repr

namespace Reader

def fail (r : Reader) : Reader := { r with ok := false }

/-- The reader has failed or has nothing left to read. -/
def empty (r : Reader) : Bool := !r.ok || r.src.isEmpty

def readSignedNumIncreasing (r : Reader) : Except String (Int × Reader) := do
  if r.ok then
    match ← OrderedCode.readSignedNumIncreasing r.src with
    | some (result, src) => pure (result, { r with src })
    | none => pure (0, r.fail)
  else pure (0, r.fail)

def readString (r : Reader) : Except String (ByteString × Reader) := do
  if r.ok then
    match ← OrderedCode.readString r.src with
    | some (result, src) => pure (result, { r with src })
    | none => pure ([], r.fail)
  else pure ([], r.fail)

/-- Whether the component label at the front is the expected one. That it is another one is not a
    failure. -/
def readComponentLabelMatching (r : Reader) (expectedLabel : ComponentLabel) :
    Except String (Bool × Reader) := do
  if r.ok then
    let (rawResult, r) ← r.readSignedNumIncreasing
    if r.ok then pure (rawResult = expectedLabel.value, r) else pure (false, r.fail)
  else pure (false, r.fail)

def readInt32 (r : Reader) : Except String (Int × Reader) := do
  if r.ok then
    let (rawResult, r) ← r.readSignedNumIncreasing
    if r.ok ∧ -2 ^ 31 ≤ rawResult ∧ rawResult ≤ 2 ^ 31 - 1 then pure (rawResult, r)
    else pure (0, r.fail)
  else pure (0, r.fail)

def readLabeledInt32 (r : Reader) (expectedLabel : ComponentLabel) :
    Except String (Int × Reader) := do
  let (matching, r) ← r.readComponentLabelMatching expectedLabel
  (if matching then r else r.fail).readInt32

def readLabeledString (r : Reader) (expectedLabel : ComponentLabel) :
    Except String (ByteString × Reader) := do
  let (matching, r) ← r.readComponentLabelMatching expectedLabel
  (if matching then r else r.fail).readString

/-- `ReadTableNameMatching`. -/
def readTableNameMatching (r : Reader) (expectedTableName : String) : Except String Reader := do
  let (value, r) ← r.readLabeledString .tableName
  pure (if r.ok ∧ value = bytesOf expectedTableName then r else r.fail)

def readBatchId (r : Reader) : Except String (Int × Reader) := r.readLabeledInt32 .batchId

def readUserId (r : Reader) : Except String (ByteString × Reader) := r.readLabeledString .userId

def readTerminator (r : Reader) : Except String Reader := do
  let (matching, r) ← r.readComponentLabelMatching .terminator
  pure (if matching then r else r.fail)

/-- The loop of `ReadResourcePath`. Every round but the last takes a byte, which `fuel` counts. -/
def readResourcePathLoop : Nat → ResourcePath → Reader → Except String (ResourcePath × Reader)
  | 0, pathSegments, r => pure (pathSegments, r)
  | fuel + 1, pathSegments, r => do
      if r.empty then pure (pathSegments, r)
      else
        let savedPosition := r.src
        let (matching, r) ← r.readComponentLabelMatching .pathSegment
        if matching then
          let (segment, r) ← r.readString
          if r.ok then readResourcePathLoop fuel (pathSegments ++ [segment]) r
          else pure (pathSegments, r)
        else pure (pathSegments, { r with src := savedPosition })

def readResourcePath (r : Reader) : Except String (ResourcePath × Reader) :=
  readResourcePathLoop (r.src.length + 1) [] r

/-- `ReadDocumentKey`. The default document key has the empty path. -/
def readDocumentKey (r : Reader) : Except String (ResourcePath × Reader) := do
  let (path, r) ← r.readResourcePath
  if r.ok ∧ path ≠ [] ∧ isDocumentKey path then pure (path, r) else pure ([], r.fail)

end Reader

/-! ## Keys -/

namespace LevelDbMutationKey

/-- `KeyPrefix()`. -/
def tablePrefix : Except String ByteString :=
  Writer.writeTableName [] kMutationsTable

/-- `KeyPrefix(user_id)`. -/
def keyPrefix (userId : ByteString) : Except String ByteString := do
  let dest ← Writer.writeTableName [] kMutationsTable
  Writer.writeUserId dest userId

def key (userId : ByteString) (batchId : Int) : Except String ByteString := do
  let dest ← Writer.writeTableName [] kMutationsTable
  let dest ← Writer.writeUserId dest userId
  let dest ← Writer.writeBatchId dest batchId
  Writer.writeTerminator dest

/-- `Decode`: the `user_id` and the `batch_id` if it returns true. -/
def decode (key : ByteString) : Except String (Option (ByteString × Int)) := do
  let r ← Reader.readTableNameMatching ⟨key, true⟩ kMutationsTable
  let (userId, r) ← r.readUserId
  let (batchId, r) ← r.readBatchId
  let r ← r.readTerminator
  pure (if r.ok then some (userId, batchId) else none)

end LevelDbMutationKey

namespace LevelDbDocumentMutationKey

/-- `KeyPrefix(user_id)`. -/
def userPrefix (userId : ByteString) : Except String ByteString := do
  let dest ← Writer.writeTableName [] kDocumentMutationsTable
  Writer.writeUserId dest userId

/-- `KeyPrefix(user_id, resource_path)`. -/
def keyPrefix (userId : ByteString) (resourcePath : ResourcePath) : Except String ByteString := do
  let dest ← Writer.writeTableName [] kDocumentMutationsTable
  let dest ← Writer.writeUserId dest userId
  Writer.writeResourcePath dest resourcePath

def key (userId : ByteString) (documentKey : ResourcePath) (batchId : Int) :
    Except String ByteString := do
  let dest ← Writer.writeTableName [] kDocumentMutationsTable
  let dest ← Writer.writeUserId dest userId
  let dest ← Writer.writeResourcePath dest documentKey
  let dest ← Writer.writeBatchId dest batchId
  Writer.writeTerminator dest

/-- `Decode`: the `user_id`, the `document_key` and the `batch_id` if it returns true. -/
def decode (key : ByteString) : Except String (Option (ByteString × ResourcePath × Int)) := do
  let r ← Reader.readTableNameMatching ⟨key, true⟩ kDocumentMutationsTable
  let (userId, r) ← r.readUserId
  let (documentKey, r) ← r.readDocumentKey
  let (batchId, r) ← r.readBatchId
  let r ← r.readTerminator
  pure (if r.ok then some (userId, documentKey, batchId) else none)

end LevelDbDocumentMutationKey

namespace LevelDbMutationQueueKey

def key (userId : ByteString) : Except String ByteString := do
  let dest ← Writer.writeTableName [] kMutationQueuesTable
  let dest ← Writer.writeUserId dest userId
  Writer.writeTerminator dest

end LevelDbMutationQueueKey

example : LevelDbMutationKey.key (bytesOf "u") 1
    = .ok ([0x85] ++ bytesOf "mutation" ++ [0x00, 0x01, 0x8d] ++ bytesOf "u"
      ++ [0x00, 0x01, 0x8a, 0x81, 0x80]) := by decide +kernel

end Harusali.Firestore
