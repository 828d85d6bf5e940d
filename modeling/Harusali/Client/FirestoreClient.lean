import Harusali.Client.WriteStream

set_option autoImplicit false

/-! # The write path of the client

`SyncEngine`, `LocalStore` and `RemoteStore`, as far as writes go through them, in one state. Each
function is one operation on the worker queue or a part of one. An operation that fails a
`HARD_ASSERT` returns its message in place of a state.

The app listens to nothing and reads no document, so the views, the watch stream and the cache
of remote documents, which only those read, are left out, and so is `waitForPendingWrites`. -/

namespace Harusali.Firestore

/-- The callback of a `WriteMutations` call; calls are numbered for the observer. -/
structure StatusCallback where
  write : Nat
  deriving DecidableEq, Repr

/-- A `LevelDbMutationQueue`. -/
structure LevelDbMutationQueue where
  userId : String
  nextBatchId : Int
  /-- `metadata_`, of which only the token is used. -/
  lastStreamToken : ByteString

structure FirestoreClient where
  persistence : Persistence
  mutationQueue : LevelDbMutationQueue
  currentUser : User
  mutationCallbacks : User → Int → Option StatusCallback
  isNetworkEnabled : Bool
  writePipeline : List MutationBatch
  writeStream : WriteStream
  /-- The calls the client has destroyed. The service may still be reading them. -/
  released : List Call
  /-- The writes that have left their queue, with how; for the observer. -/
  settled : List (Nat × Status)
  /-- The callbacks handed to the user's executor, with their argument. -/
  notified : List (StatusCallback × Status)

def kMaxPendingWrites : Nat := 10

namespace FirestoreClient

/-! ## `LocalStore` -/

/-- `Start` of the queue of this user, which has just been made. -/
def startMutationQueue (db : Persistence) (user : User) : LevelDbMutationQueue where
  userId := user.userId
  nextBatchId := db.loadNextBatchIdFromDb
  lastStreamToken := db.mutationQueue user.userId

/-- `LocalStore::SetLastStreamToken`. -/
def setLastStreamToken (c : FirestoreClient) (streamToken : ByteString) : FirestoreClient :=
  { c with
    mutationQueue := { c.mutationQueue with lastStreamToken := streamToken }
    persistence := c.persistence.setLastStreamToken c.mutationQueue.userId streamToken }

/-- `LocalStore::HandleUserChange`. -/
def handleUserChange (c : FirestoreClient) (user : User) : FirestoreClient :=
  { c with mutationQueue := startMutationQueue c.persistence user }

/-- The batch `AddMutationBatch` makes. -/
def nextBatch (c : FirestoreClient) (mutations : List SetMutation) (callback : StatusCallback) :
    MutationBatch where
  batchId := c.mutationQueue.nextBatchId
  mutations
  write := callback.write

/-- `LocalStore::WriteLocally`. Set mutations have no base value. -/
def writeLocally (c : FirestoreClient) (batch : MutationBatch) : FirestoreClient :=
  { c with
    mutationQueue := { c.mutationQueue with nextBatchId := c.mutationQueue.nextBatchId + 1 }
    persistence := c.persistence.addMutationBatch c.mutationQueue.userId batch }

/-- `LocalStore::AcknowledgeBatch`. -/
def acknowledgeBatch (c : FirestoreClient) (batch : MutationBatch) (streamToken : ByteString) :
    Except String FirestoreClient := do
  let c := c.setLastStreamToken streamToken
  let persistence ← c.persistence.removeMutationBatch c.mutationQueue.userId batch
  pure { c with persistence, settled := c.settled ++ [(batch.write, .OK)] }

/-- `LocalStore::RejectBatch`. -/
def rejectBatch (c : FirestoreClient) (batchId : Int) (error : Status) :
    Except String FirestoreClient :=
  match c.persistence.lookupMutationBatch c.mutationQueue.userId batchId with
  | none => .error "Attempt to reject nonexistent batch!"
  | some toReject => do
      let persistence ← c.persistence.removeMutationBatch c.mutationQueue.userId toReject
      pure { c with persistence, settled := c.settled ++ [(toReject.write, error)] }

/-! ## `SyncEngine` -/

/-- `NotifyUser`. -/
def notifyUser (c : FirestoreClient) (batchId : Int) (status : Status) : FirestoreClient :=
  match c.mutationCallbacks c.currentUser batchId with
  | none => c
  | some callback =>
      { c with
        notified := c.notified ++ [(callback, status)]
        mutationCallbacks := Function.update c.mutationCallbacks c.currentUser
          (Function.update (c.mutationCallbacks c.currentUser) batchId none) }

/-- `HandleSuccessfulWrite`. -/
def handleSuccessfulWrite (c : FirestoreClient) (batch : MutationBatch) (streamToken : ByteString) :
    Except String FirestoreClient :=
  (c.notifyUser batch.batchId .OK).acknowledgeBatch batch streamToken

/-- `HandleRejectedWrite`. -/
def handleRejectedWrite (c : FirestoreClient) (batchId : Int) (error : Status) :
    Except String FirestoreClient := do
  let c ← c.rejectBatch batchId error
  pure (c.notifyUser batchId error)

/-! ## `RemoteStore`: filling the pipeline -/

def shouldStartWriteStream (c : FirestoreClient) : Bool :=
  c.isNetworkEnabled && !c.writeStream.isStarted && !c.writePipeline.isEmpty

def startWriteStream (c : FirestoreClient) : Except String FirestoreClient := do
  hardAssert c.shouldStartWriteStream
    "StartWriteStream called when ShouldStartWriteStream is false."
  let writeStream ← c.writeStream.start
  pure { c with writeStream }

def canAddToWritePipeline (c : FirestoreClient) : Bool :=
  c.isNetworkEnabled && c.writePipeline.length < kMaxPendingWrites

def addToWritePipeline (c : FirestoreClient) (batch : MutationBatch) :
    Except String FirestoreClient := do
  hardAssert c.canAddToWritePipeline "AddToWritePipeline called when pipeline is full"
  let c := { c with writePipeline := c.writePipeline ++ [batch] }
  if c.writeStream.isOpen && c.writeStream.handshakeComplete then
    let writeStream ← c.writeStream.writeMutations batch
    pure { c with writeStream }
  else pure c

/-- The loop of `FillWritePipeline`, with the number of turns until the pipeline is full. -/
def fillLoop : Nat → Int → FirestoreClient → Except String FirestoreClient
  | 0, _, c => pure c
  | n + 1, lastBatchIdRetrieved, c =>
      match c.persistence.nextMutationBatchAfterBatchId c.mutationQueue.userId
        lastBatchIdRetrieved with
      | none =>
          pure (if c.writePipeline.isEmpty then { c with writeStream := c.writeStream.markIdle }
            else c)
      | some batch => do
          let c ← c.addToWritePipeline batch
          fillLoop n batch.batchId c

/-- `FillWritePipeline`. -/
def fillWritePipeline (c : FirestoreClient) : Except String FirestoreClient := do
  let lastBatchIdRetrieved :=
    (c.writePipeline.getLast?.map (·.batchId)).getD kBatchIdUnknown
  let turns := if c.isNetworkEnabled then kMaxPendingWrites - c.writePipeline.length else 0
  let c ← fillLoop turns lastBatchIdRetrieved c
  if c.shouldStartWriteStream then c.startWriteStream else pure c

/-! ## `RemoteStore`: the write stream's callbacks -/

/-- `HandleHandshakeError`. -/
def handleHandshakeError (c : FirestoreClient) (status : Status) :
    Except String FirestoreClient := do
  hardAssert (¬ status.ok) "Handling write error with status OK."
  pure (if isPermanentError status then
      { c with writeStream := { c.writeStream with lastStreamToken := [] } }.setLastStreamToken []
    else c)

/-- `HandleWriteError`. -/
def handleWriteError (c : FirestoreClient) (status : Status) : Except String FirestoreClient := do
  hardAssert (¬ status.ok) "Handling write error with status OK."
  if isPermanentWriteError status then
    match c.writePipeline with
    | [] => .error "front() of an empty pipeline"
    | batch :: rest => do
        let writeStream ← c.writeStream.inhibitBackoff
        let c ← { c with writePipeline := rest, writeStream }.handleRejectedWrite batch.batchId status
        c.fillWritePipeline
  else pure c

/-- The error of a closed stream goes to the writes or, before the handshake, to the token. -/
def handleStreamError (c : FirestoreClient) (status : Status) : Except String FirestoreClient :=
  if ¬ status.ok ∧ c.writePipeline ≠ [] then
    if c.writeStream.handshakeComplete then c.handleWriteError status
    else c.handleHandshakeError status
  else pure c

/-- `OnWriteStreamClose`. -/
def onWriteStreamClose (c : FirestoreClient) (status : Status) : Except String FirestoreClient := do
  hardAssert (status.ok → ¬ c.shouldStartWriteStream)
    "Write stream was stopped gracefully while still needed."
  let c ← c.handleStreamError status
  if c.shouldStartWriteStream then c.startWriteStream else pure c

/-- The steps of `Stream::Close` that let go of the call. -/
def letGo (c : FirestoreClient) (status : Status) : FirestoreClient :=
  { c with
    released := c.released ++ (c.writeStream.released status).toList
    writeStream := c.writeStream.closed status }

/-- `Stream::Close` of the write stream, with `NotifyStreamClose`. -/
def close (c : FirestoreClient) (status : Status) : Except String FirestoreClient :=
  if status.ok ∧ ¬ c.writeStream.isStarted then pure c
  else do
    hardAssert c.writeStream.isStarted "Trying to close a non-started stream"
    let c ← (c.letGo status).onWriteStreamClose status
    pure { c with writeStream := { c.writeStream with handshakeComplete := false } }

/-- `Stream::Stop`. -/
def stop (c : FirestoreClient) : Except String FirestoreClient := c.close .OK

/-- The loop of `OnWriteStreamHandshakeComplete`. -/
def sendAll : List MutationBatch → WriteStream → Except String WriteStream
  | [], ws => pure ws
  | batch :: rest, ws => do
      let ws ← ws.writeMutations batch
      sendAll rest ws

/-- `OnWriteStreamHandshakeComplete`. -/
def onWriteStreamHandshakeComplete (c : FirestoreClient) : Except String FirestoreClient := do
  let c := c.setLastStreamToken c.writeStream.lastStreamToken
  let writeStream ← sendAll c.writePipeline c.writeStream
  pure { c with writeStream }

/-- `OnWriteStreamMutationResult`, with the check in the constructor of `MutationBatchResult`. -/
def onWriteStreamMutationResult (c : FirestoreClient) (mutationResults : Nat) :
    Except String FirestoreClient :=
  match c.writePipeline with
  | [] => .error "Got result for empty write pipeline"
  | batch :: rest => do
      hardAssert (batch.mutations.length = mutationResults)
        "Number of mutations sent must equal results received"
      let c ← { c with writePipeline := rest }.handleSuccessfulWrite batch
        c.writeStream.lastStreamToken
      c.fillWritePipeline

/-- `NotifyStreamResponse`: the client after it, or the status of a response it could not read. -/
def notifyStreamResponse (c : FirestoreClient) :
    Message → Except String (FirestoreClient × Status)
  | .unparsed status => pure (c, status)
  | .response streamToken mutationResults =>
      let c := { c with writeStream := { c.writeStream with lastStreamToken := streamToken } }
      if ¬ c.writeStream.handshakeComplete then do
        let c ← onWriteStreamHandshakeComplete
          { c with writeStream := { c.writeStream with handshakeComplete := true } }
        pure (c, .OK)
      else
        match mutationResults with
        | .error status => pure (c, status)
        | .ok results => do
            let c ← c.onWriteStreamMutationResult results
            pure (c, .OK)

/-! ## Operations on the worker queue -/

/-- `SyncEngine::WriteMutations`. -/
def writeMutations (c : FirestoreClient) (mutations : List SetMutation) (callback : StatusCallback) :
    Except String FirestoreClient :=
  let batch := c.nextBatch mutations callback
  let c := c.writeLocally batch
  -- `insert` does not replace a callback that is there
  let callbacks := Function.update (c.mutationCallbacks c.currentUser) batch.batchId
    ((c.mutationCallbacks c.currentUser batch.batchId).or (some callback))
  { c with
    mutationCallbacks := Function.update c.mutationCallbacks c.currentUser callbacks
    : FirestoreClient }.fillWritePipeline

/-- `RemoteStore::EnableNetwork`. -/
def enableNetwork (c : FirestoreClient) : Except String FirestoreClient :=
  { c with
    isNetworkEnabled := true
    writeStream := { c.writeStream with lastStreamToken := c.mutationQueue.lastStreamToken }
    : FirestoreClient }.fillWritePipeline

/-- `RemoteStore::DisableNetworkInternal`. -/
def disableNetworkInternal (c : FirestoreClient) : Except String FirestoreClient := do
  let c ← c.stop
  pure { c with writePipeline := [] }

/-- `RemoteStore::HandleCredentialChange`. -/
def restartStreams (c : FirestoreClient) : Except String FirestoreClient :=
  if c.isNetworkEnabled then do
    let c ← { c with isNetworkEnabled := false }.disableNetworkInternal
    c.enableNetwork
  else pure c

/-- `SyncEngine::HandleCredentialChange`. -/
def handleCredentialChange (c : FirestoreClient) (user : User) : Except String FirestoreClient :=
  let userChanged := c.currentUser ≠ user
  let c := { c with currentUser := user }
  if userChanged then (c.handleUserChange user).restartStreams else c.restartStreams

/-- `ResumeStartWithCredentials`, guarded by the close count the token was asked for with. -/
def resumeStartWithCredentials (c : FirestoreClient) (initialCloseCount : Nat)
    (maybeToken : Except Status Token) : Except String FirestoreClient :=
  let c := { c with
    writeStream := { c.writeStream with
      getTokens := c.writeStream.getTokens.erase initialCloseCount } }
  if c.writeStream.closeCount ≠ initialCloseCount then pure c
  else do
    hardAssert (c.writeStream.state = .starting) "State should still be 'Starting'"
    match maybeToken with
    | .error status => c.close status
    | .ok token => do
        let writeStream ←
          { c.writeStream with grpcStream := some (.start token) }.onStreamStart
        pure { c with writeStream }

/-- `OnStreamRead`. A response that cannot be read ends the stream. -/
def onStreamRead (c : FirestoreClient) (message : Message) : Except String FirestoreClient := do
  hardAssert c.writeStream.isStarted "OnStreamRead called for a stopped stream."
  let (c, readStatus) ← c.notifyStreamResponse message
  if readStatus.ok then pure c else c.close readStatus

/-- `OnStreamFinish`. -/
def onStreamFinish (c : FirestoreClient) (status : Status) : Except String FirestoreClient :=
  c.close status

/-- The timer of `backoff_` fires. -/
def backoffElapsed (c : FirestoreClient) : Except String FirestoreClient := do
  let writeStream ← c.writeStream.backoffElapsed
  pure { c with writeStream }

/-- `FirestoreClient::Initialize` in a new process, which finds what is on disk; the calls of the
    old process and the observer's logs are carried along. -/
def initializeClient (db : Persistence) (user : User) (released : List Call)
    (settled : List (Nat × Status)) (notified : List (StatusCallback × Status)) :
    Except String FirestoreClient :=
  { persistence := db
    mutationQueue := startMutationQueue db user
    currentUser := user
    mutationCallbacks := fun _ _ => none
    isNetworkEnabled := false
    writePipeline := []
    writeStream := .initial
    released
    settled
    notified : FirestoreClient }.enableNetwork

end FirestoreClient

end Harusali.Firestore
