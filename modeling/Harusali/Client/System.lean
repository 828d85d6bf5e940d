import Harusali.Client.FirestoreClient
import Harusali.Machine.Run

set_option autoImplicit false

/-! # The client and the service

The client with the calls it has made, and the service at their other end. The service reads the
requests of a call in order and answers each by carrying it out or by ending the call with an
error; it may still do so on a call the client has let go of. Of the transport this assumes that
it keeps the order within a call and that an error of its own is never one of the codes the
client takes for a permanent write error.

A state in which a `HARD_ASSERT` has failed is an `Except.error`, and nothing happens in it any
more. -/

namespace Harusali.Firestore

/-! ## The service -/

/-- The documents after a batch has been carried out. -/
def applyMutations (db : Harusali.Firestore) (mutations : List SetMutation) : Harusali.Firestore :=
  mutations.foldl (fun db m => db.setData m.key m.value none) db

/-- What the client may make of the answer to a request with this many mutations. -/
def Message.Fits (mutations : Nat) : Message → Prop
  | .unparsed status => status.ok = false
  | .response _ (.error status) => status.ok = false
  | .response _ (.ok results) => results = mutations

instance (mutations : Nat) : DecidablePred (Message.Fits mutations)
  | .unparsed status => inferInstanceAs (Decidable (status.ok = false))
  | .response _ (.error status) => inferInstanceAs (Decidable (status.ok = false))
  | .response _ (.ok results) => inferInstanceAs (Decidable (results = mutations))

/-- How the service deals with the request at the head of a call. -/
inductive Answer where
  /-- It carries the request out; what the client will make of the response. -/
  | accept (message : Message)
  | refuse (status : Status)

/-- Documents, and what an observer at the service has seen. -/
structure Backend where
  firestore : Harusali.Firestore
  /-- The writes carried out, each with the token of its call. -/
  commits : List (Token × Nat)
  /-- The writes refused. -/
  refusals : List (Nat × Status)

/-- The service reads the next request of a call. -/
def Backend.serve (backend : Backend) (call : Call) (answer : Answer) : Option (Backend × Call) :=
  match call.ended, call.requests with
  | none, request :: rest =>
      match request, answer with
      | .writeMutations _ _ write, .refuse status =>
          if status.ok then none
          else some ({ backend with refusals := backend.refusals ++ [(write, status)] },
            { call with ended := some status })
      | _, .refuse status =>
          if status.ok then none else some (backend, { call with ended := some status })
      | .handshake, .accept message =>
          if message.Fits 0 then
            some (backend, { call with
              requests := rest, responses := call.responses ++ [⟨message, none⟩] })
          else none
      | .writeMutations mutations _ write, .accept message =>
          if message.Fits mutations.length then
            some ({ backend with
                firestore := applyMutations backend.firestore mutations
                commits := backend.commits ++ [(call.token, write)] },
              { call with
                requests := rest, responses := call.responses ++ [⟨message, some write⟩] })
          else none
      | .emptyMutationsList _, .accept _ => some (backend, { call with requests := rest })
  | _, _ => none

/-! ## The machine -/

structure System where
  client : FirestoreClient
  backend : Backend
  /-- The writes made so far, each with the user it was made under. -/
  writes : List (User × List SetMutation)
  /-- The number of writes made before the present process. -/
  processStart : Nat

namespace System

inductive Action where
  /-- A `setData` reaches the worker queue. -/
  | setData (path : DocumentPath) (data : DocumentData)
  | credentialChange (user : User)
  | resumeStart (initialCloseCount : Nat) (maybeToken : Except Status Token)
  | streamRead
  | streamFinish (status : Status)
  | backoffElapsed
  | idleTimeout
  /-- The service reads the next request of the live call. -/
  | serve (answer : Answer)
  /-- The service reads the next request of a call the client has let go of. -/
  | serveReleased (call : Nat) (answer : Answer)
  /-- A new process. -/
  | restart (user : User)

/-- `ParsedSetData::ToMutations` for `setData` without merging. -/
def toMutations (path : DocumentPath) (data : DocumentData) : List SetMutation := [⟨path, data⟩]

/-- The client after an operation. -/
def after (s : System) (client : Except String FirestoreClient) : Except String System :=
  client.map fun client => { s with client }

/-- What `GetToken` may call back with: an error is not a status OK. -/
def MayCallBack (maybeToken : Except Status Token) : Prop :=
  match maybeToken with
  | .error status => status.ok = false
  | .ok _ => True

instance (maybeToken : Except Status Token) : Decidable (MayCallBack maybeToken) := by
  unfold MayCallBack
  cases maybeToken
  · exact inferInstance
  · exact inferInstance

/-- The statuses a call may end with for the client. -/
def MayFinish (call : Call) (status : Status) : Prop :=
  match call.ended with
  | some ended => status = ended
  | none => status.ok = false ∧ isPermanentWriteError status = false

instance (call : Call) (status : Status) : Decidable (MayFinish call status) := by
  unfold MayFinish
  cases call.ended
  · exact inferInstance
  · exact inferInstance

def step (s : System) : Action → Option (Except String System)
  | .setData path data =>
      let mutations := toMutations path data
      some <| after { s with writes := s.writes ++ [(s.client.currentUser, mutations)] } <|
        s.client.writeMutations mutations ⟨s.writes.length⟩
  | .credentialChange user => some (s.after (s.client.handleCredentialChange user))
  | .resumeStart initialCloseCount maybeToken =>
      if initialCloseCount ∈ s.client.writeStream.getTokens ∧ MayCallBack maybeToken then
        some (s.after (s.client.resumeStartWithCredentials initialCloseCount maybeToken))
      else none
  | .streamRead =>
      match s.client.writeStream.grpcStream with
      | some { token, requests, responses := response :: rest, ended } =>
          let client := { s.client with
            writeStream := { s.client.writeStream with
              grpcStream := some { token, requests, responses := rest, ended } } }
          some (s.after (client.onStreamRead response.message))
      | _ => none
  | .streamFinish status =>
      match s.client.writeStream.grpcStream with
      | some call =>
          if MayFinish call status then some (s.after (s.client.onStreamFinish status)) else none
      | none => none
  | .backoffElapsed =>
      if s.client.writeStream.state = .backoff then some (s.after s.client.backoffElapsed) else none
  | .idleTimeout =>
      if s.client.writeStream.idlenessTimer then some (s.after s.client.stop) else none
  | .serve answer =>
      match s.client.writeStream.grpcStream with
      | some call =>
          (s.backend.serve call answer).map fun (backend, call) =>
            .ok { s with
              backend
              client := { s.client with
                writeStream := { s.client.writeStream with grpcStream := some call } } }
      | none => none
  | .serveReleased i answer =>
      match s.client.released[i]? with
      | some call =>
          (s.backend.serve call answer).map fun (backend, call) =>
            .ok { s with
              backend
              client := { s.client with released := s.client.released.set i call } }
      | none => none
  | .restart user =>
      some <| after { s with processStart := s.writes.length } <|
        FirestoreClient.initializeClient s.client.persistence user
          (s.client.released ++ s.client.writeStream.grpcStream.toList) s.client.settled
          s.client.notified

/-- The `GetToken` calls an action leaves outstanding. -/
def kept (s : System) : Action → List Nat
  | .resumeStart n _ => s.client.writeStream.getTokens.erase n
  | .restart _ => []
  | _ => s.client.writeStream.getTokens

def machine : Machine (Except String System) Action where
  step
    | .ok s, action => s.step action
    | .error _, _ => none

/-- The first process of an installation, which finds nothing on disk. -/
def install (user : User) (firestore : Harusali.Firestore) : Except String System :=
  (FirestoreClient.initializeClient { mutation := [], mutationQueue := fun _ => [] } user [] []
    []).map fun client =>
      { client
        backend := { firestore, commits := [], refusals := [] }
        writes := []
        processStart := 0 }

end System

end Harusali.Firestore
