import Harusali.Client.MutationQueue

set_option autoImplicit false

/-! # The write stream

`Stream` and `WriteStream` of the vendored client, and the gRPC call they hold. A call carries
requests to the service and responses back, each in order; what has not been read at the other
end yet is in the call. When the call ends, responses the client has not read are lost, because
`GrpcStream` cancels its pending read before it asks for the status. -/

namespace Harusali.Firestore

/-! ## Calls -/

inductive Request where
  | handshake
  /-- A write request for the mutations of one batch. `write` is the batch's, for the observer. -/
  | writeMutations (mutations : List SetMutation) (streamToken : ByteString) (write : Nat)
  | emptyMutationsList (streamToken : ByteString)
  deriving DecidableEq, Repr

/-- What the client makes of a message of the service. -/
inductive Message where
  /-- `ParseResponse` fails. -/
  | unparsed (status : Status)
  /-- A response; the number of its mutation results, or how decoding them fails. -/
  | response (streamToken : ByteString) (mutationResults : Except Status Nat)

/-- A message of the service. `write` is the write it acknowledges, for the observer; the response
    to the handshake acknowledges none. -/
structure Response where
  message : Message
  write : Option Nat

/-- The `auth::Token` a call is opened with: whose it is, `none` for the unauthenticated one. -/
abbrev Token := Option Uid

/-- A call of the `Write` method. -/
structure Call where
  token : Token
  /-- Sent and not yet read by the service. -/
  requests : List Request
  /-- Sent by the service and not yet read. -/
  responses : List Response
  /-- With what the service has ended the call, if it has. -/
  ended : Option Status

namespace Call

def start (token : Token) : Call where
  token
  requests := []
  responses := []
  ended := none

def send (call : Call) (request : Request) : Call :=
  { call with requests := call.requests ++ [request] }

end Call

/-! ## `Stream` -/

/-- `Stream::State`. -/
inductive Stream.State where
  | initial
  | starting
  | opened
  | error
  | backoff
  deriving DecidableEq, Repr

/-- A `WriteStream`. -/
structure WriteStream where
  state : Stream.State
  closeCount : Nat
  /-- Whether `idleness_timer_` is running. -/
  idlenessTimer : Bool
  grpcStream : Option Call
  handshakeComplete : Bool
  lastStreamToken : ByteString
  /-- The `GetToken` calls that have not called back, each with its `initial_close_count`. -/
  getTokens : List Nat

namespace WriteStream

def initial : WriteStream where
  state := .initial
  closeCount := 0
  idlenessTimer := false
  grpcStream := none
  handshakeComplete := false
  lastStreamToken := []
  getTokens := []

def isOpen (self : WriteStream) : Bool := self.state = .opened

def isStarted (self : WriteStream) : Bool :=
  self.state = .starting ∨ self.state = .backoff ∨ self.isOpen

/-- `RequestCredentials`. -/
def requestCredentials (self : WriteStream) : WriteStream :=
  { self with getTokens := self.getTokens ++ [self.closeCount] }

/-- `BackoffAndTryRestarting`. The timer of `backoff_` runs exactly in this state. -/
def backoffAndTryRestarting (self : WriteStream) : Except String WriteStream := do
  hardAssert (self.state = .error) "Should only perform backoff in an error case"
  pure { self with state := .backoff }

/-- `Start`. -/
def start (self : WriteStream) : Except String WriteStream :=
  if self.state = .error then self.backoffAndTryRestarting
  else do
    hardAssert (self.state = .initial) "Already started"
    pure { self with state := .starting }.requestCredentials

/-- The operation `BackoffAndTryRestarting` leaves to the timer. -/
def backoffElapsed (self : WriteStream) : Except String WriteStream := do
  hardAssert (self.state = .backoff) "Backoff elapsed but state is now different"
  let self ← { self with state := .initial }.start
  hardAssert self.isStarted "Stream should have started."
  pure self

def inhibitBackoff (self : WriteStream) : Except String WriteStream := do
  hardAssert (¬ self.isStarted) "Can only cancel backoff in a stopped state"
  pure { self with state := .initial }

def markIdle (self : WriteStream) : WriteStream :=
  if self.isOpen then { self with idlenessTimer := true } else self

/-- `Write`. -/
def write (self : WriteStream) (request : Request) : Except String WriteStream := do
  hardAssert self.isOpen "Cannot write when the stream is not open."
  pure { self with idlenessTimer := false, grpcStream := self.grpcStream.map (·.send request) }

/-! ## `WriteStream` -/

def writeHandshake (self : WriteStream) : Except String WriteStream := do
  hardAssert self.isOpen "Writing handshake requires an opened stream"
  hardAssert (¬ self.handshakeComplete) "Handshake already completed"
  self.write .handshake

def writeMutations (self : WriteStream) (batch : MutationBatch) : Except String WriteStream := do
  hardAssert self.isOpen "Writing mutations requires an opened stream"
  hardAssert self.handshakeComplete "Handshake must be complete before writing mutations"
  self.write (.writeMutations batch.mutations self.lastStreamToken batch.write)

/-- `OnStreamStart`, which `GrpcStream::Start` calls, with the `OnWriteStreamOpen` it leads to. -/
def onStreamStart (self : WriteStream) : Except String WriteStream :=
  { self with state := .opened }.writeHandshake

/-- `TearDown` of the call of a graceful stop; the call as the client leaves it. -/
def tearDown (self : WriteStream) (call : Call) : Call :=
  if self.handshakeComplete then call.send (.emptyMutationsList self.lastStreamToken) else call

/-- `Close` up to the point where it tells the listener. -/
def closed (self : WriteStream) (status : Status) : WriteStream :=
  { self with
    idlenessTimer := false
    closeCount := self.closeCount + 1
    grpcStream := none
    state := if status.ok then .initial else .error }

/-- The call `Close` destroys. -/
def released (self : WriteStream) (status : Status) : Option Call :=
  if status.ok then self.grpcStream.map self.tearDown else self.grpcStream

end WriteStream

/-! ## `Datastore` -/

/-- `Datastore::IsPermanentError`, for a status that is not OK. -/
def isPermanentError (status : Status) : Bool :=
  match status.code with
  | .ok => false
  | .cancelled | .unknown | .deadlineExceeded | .resourceExhausted | .internal | .unavailable
  | .unauthenticated => false
  | .invalidArgument | .notFound | .alreadyExists | .permissionDenied | .failedPrecondition
  | .aborted | .outOfRange | .unimplemented | .dataLoss => true

/-- `Datastore::IsPermanentWriteError`. -/
def isPermanentWriteError (status : Status) : Bool :=
  isPermanentError status && status.code ≠ .aborted

theorem not_ok_of_isPermanentWriteError {status : Status} (h : isPermanentWriteError status = true) :
    status.ok = false := by
  obtain ⟨code, message⟩ := status
  cases code <;> simp_all [isPermanentWriteError, isPermanentError, Status.ok]

end Harusali.Firestore
