import Harusali.Client.Reading
import Harusali.Client.System

set_option autoImplicit false

/-! # What a step of the system can do

`Effect s a s'` lists what action `a` can make of the system, one constructor for each outcome, in
terms of the equations of the client's operations. A step has one of these effects
(`System.effect_of_step`) where the client is in order and the answers it reads fit their writes;
in particular it never fails an assertion. -/

namespace Harusali.Firestore

/-- The error a message ends the stream with. -/
def Message.failure : Message → Option Status
  | .unparsed status => some status
  | .response _ (.error status) => some status
  | .response _ (.ok _) => none

theorem Message.Fits.not_ok {mutations : Nat} {message : Message} (h : message.Fits mutations)
    {status : Status} (hfailure : message.failure = some status) : status.ok = false := by
  cases message with
  | unparsed status' =>
      obtain rfl : status' = status := Option.some.inj hfailure
      exact h
  | response streamToken mutationResults =>
      cases mutationResults with
      | error status' =>
          obtain rfl : status' = status := Option.some.inj hfailure
          exact h
      | ok results => exact absurd hfailure (by simp [Message.failure])

namespace System

/-- An answer fits the write it is for. -/
def Fits (writes : List (User × List SetMutation)) (response : Response) : Prop :=
  match response.write with
  | none => response.message.Fits 0
  | some write => ∃ user mutations, writes[write]? = some (user, mutations) ∧
      response.message.Fits mutations.length

/-- The rows of the table are writes of their users. -/
def Filed (s : System) : Prop :=
  ∀ row ∈ s.client.persistence.mutation, ∃ user,
    s.writes[row.2.write]? = some (user, row.2.mutations) ∧ row.1 = user.userId

/-- What the client has yet to read on its call: answers that fit their writes, and an error. -/
structure Readable (s : System) : Prop where
  responses : ∀ call, s.client.writeStream.grpcStream = some call → ∀ response ∈ call.responses,
    Fits s.writes response
  ended : ∀ call, s.client.writeStream.grpcStream = some call → ∀ status, call.ended = some status →
    status.ok = false

inductive Effect (s : System) : Action → System → Prop
  | issued (path : DocumentPath) (data : DocumentData) :
      Effect s (.setData path data) { s with
        writes := s.writes ++ [(s.client.currentUser, toMutations path data)]
        client := (s.client.issue (toMutations path data) ⟨s.writes.length⟩).refill }
  | switched (user : User) :
      Effect s (.credentialChange user)
        { s with client := (s.client.withUser user).restarted.refill }
  /-- A token comes after the stream it was asked for has been closed. -/
  | stale (n : Nat) (maybeToken : Except Status Token) (hstale : s.client.writeStream.closeCount ≠ n) :
      Effect s (.resumeStart n maybeToken) { s with client := s.client.answered n }
  | tokenFailed (status : Status) (hok : status.ok = false)
      (hmem : s.client.writeStream.closeCount ∈ s.client.writeStream.getTokens) :
      Effect s (.resumeStart s.client.writeStream.closeCount (.error status)) { s with
        client := (s.client.answered s.client.writeStream.closeCount).failed status }
  | opened (token : Token)
      (hmem : s.client.writeStream.closeCount ∈ s.client.writeStream.getTokens) :
      Effect s (.resumeStart s.client.writeStream.closeCount (.ok token)) { s with
        client := { s.client with
          writeStream := FirestoreClient.opened
            (s.client.answered s.client.writeStream.closeCount).writeStream token } }
  | greeted (call : Call) (response : Response) (responses : List Response)
      (hcall : s.client.writeStream.grpcStream = some { call with responses := response :: responses })
      (hhandshake : s.client.writeStream.handshakeComplete = false) (streamToken : ByteString) :
      Effect s .streamRead { s with
        client := (s.client.withCall { call with responses }).greeted streamToken }
  | acknowledged (call : Call) (response : Response) (responses : List Response)
      (hcall : s.client.writeStream.grpcStream = some { call with responses := response :: responses })
      (hhandshake : s.client.writeStream.handshakeComplete = true) (batch : MutationBatch)
      (rest : List MutationBatch) (hpipeline : s.client.writePipeline = batch :: rest)
      (hwrite : response.write = some batch.write)
      (hcarries : Call.Carries { call with responses } rest) (streamToken : ByteString) :
      Effect s .streamRead { s with
        client := ((s.client.withCall { call with responses }).acknowledged streamToken batch
          rest).refill }
  /-- A response cannot be read. -/
  | unread (call : Call) (response : Response) (responses : List Response)
      (hcall : s.client.writeStream.grpcStream = some { call with responses := response :: responses })
      (status : Status) (hok : status.ok = false)
      (hfailure : response.message.failure = some status) (streamToken : ByteString) :
      Effect s .streamRead { s with
        client := ((s.client.withCall { call with responses }).withToken streamToken).failed status }
  | finished (call : Call) (hcall : s.client.writeStream.grpcStream = some call) (status : Status)
      (hok : status.ok = false) (hfinish : MayFinish call status) :
      Effect s (.streamFinish status) { s with client := s.client.failed status }
  | backoffElapsed (hstate : s.client.writeStream.state = .backoff) :
      Effect s .backoffElapsed { s with
        client := { s.client with
          writeStream := { s.client.writeStream with state := .initial }.begun } }
  | idle (hidle : s.client.writeStream.idlenessTimer = true) :
      Effect s .idleTimeout { s with client := s.client.stopped }
  | served (call : Call) (hcall : s.client.writeStream.grpcStream = some call) (answer : Answer)
      (backend : Backend) (call' : Call) (hserve : s.backend.serve call answer = some (backend, call')) :
      Effect s (.serve answer) { s with backend, client := s.client.withCall call' }
  | servedReleased (i : Nat) (call : Call) (hcall : s.client.released[i]? = some call)
      (answer : Answer) (backend : Backend) (call' : Call)
      (hserve : s.backend.serve call answer = some (backend, call')) :
      Effect s (.serveReleased i answer) { s with
        backend, client := { s.client with released := s.client.released.set i call' } }
  | booted (user : User) :
      Effect s (.restart user) { s with
        processStart := s.writes.length
        client := (FirestoreClient.booted s.client.persistence user
          (s.client.released ++ s.client.writeStream.grpcStream.toList) s.client.settled
          s.client.notified).refill }

/-! ## Reading -/

section Reading

variable {s : System} {call : Call} {response : Response} {responses : List Response}

/-- The call the client reads from, after it has read. -/
theorem step_streamRead
    (hcall : s.client.writeStream.grpcStream = some { call with responses := response :: responses }) :
    s.step .streamRead
      = some (s.after ((s.client.withCall { call with responses }).onStreamRead response.message)) := by
  simp only [step, hcall, FirestoreClient.withCall]

/-- A response that can be read during the handshake completes it. -/
theorem effect_of_greeting (h : s.client.ClientOk)
    (hcall : s.client.writeStream.grpcStream = some { call with responses := response :: responses })
    (hhandshake : s.client.writeStream.handshakeComplete = false) {streamToken : ByteString}
    {mutationResults : Except Status Nat}
    (hmessage : response.message = .response streamToken mutationResults) :
    ∃ s', s.step .streamRead = some (.ok s') ∧ Effect s .streamRead s' := by
  obtain ⟨hopened, -⟩ := h.stream.call _ hcall
  refine ⟨_, ?_, .greeted call response responses hcall hhandshake streamToken⟩
  rw [step_streamRead hcall, hmessage,
    FirestoreClient.onStreamRead_greeted (c := s.client.withCall _) hopened hhandshake]
  rfl

/-- A response after the handshake acknowledges the first write of the pipeline. -/
theorem effect_of_result (h : s.client.ClientOk) (hfiled : s.Filed)
    (hfits : Fits s.writes response)
    (hcall : s.client.writeStream.grpcStream = some { call with responses := response :: responses })
    (hhandshake : s.client.writeStream.handshakeComplete = true) {streamToken : ByteString}
    {results : Nat} (hmessage : response.message = .response streamToken (.ok results)) :
    ∃ s', s.step .streamRead = some (.ok s') ∧ Effect s .streamRead s' := by
  obtain ⟨hopened, -⟩ := h.stream.call _ hcall
  have hstarted : s.client.writeStream.isStarted = true := by
    simp [WriteStream.isStarted, WriteStream.isOpen, hopened]
  obtain ⟨batch, rest, hpipeline, hwrite, hcarries⟩ :=
    FirestoreClient.first_of_carries h hcall hhandshake
  have hlength : results = batch.mutations.length := by
    have hmem : batch ∈ s.client.queue := by
      have hfirst : batch ∈ s.client.writePipeline := by simp [hpipeline]
      rw [h.pipeline] at hfirst
      exact List.mem_of_mem_take hfirst
    obtain ⟨user, hbatch, -⟩ := hfiled _ (Persistence.mem_allMutationBatches.1 hmem)
    rw [Fits, hwrite] at hfits
    obtain ⟨user', mutations, hget, hlength⟩ := hfits
    rw [hmessage] at hlength
    obtain ⟨-, rfl⟩ := Prod.mk.inj (Option.some.inj (hbatch.symm.trans hget))
    exact hlength
  refine ⟨_, ?_, .acknowledged call response responses hcall hhandshake batch rest hpipeline hwrite
    hcarries streamToken⟩
  rw [step_streamRead hcall, hmessage, hlength,
    FirestoreClient.onStreamRead_acknowledged
      (FirestoreClient.pipelineOk_withCall h.toPipelineOk _) hstarted hhandshake hpipeline]
  rfl

theorem effect_of_streamRead (h : s.client.ClientOk) (hfiled : s.Filed)
    (hfits : Fits s.writes response)
    (hcall : s.client.writeStream.grpcStream = some { call with responses := response :: responses }) :
    ∃ s', s.step .streamRead = some (.ok s') ∧ Effect s .streamRead s' := by
  obtain ⟨hopened, -⟩ := h.stream.call _ hcall
  have hpipelineOk := FirestoreClient.pipelineOk_withCall h.toPipelineOk { call with responses }
  have hstarted : (s.client.withCall { call with responses }).writeStream.isStarted = true := by
    simp [FirestoreClient.withCall, WriteStream.isStarted, WriteStream.isOpen, hopened]
  have hok : ∀ status, response.message.failure = some status → status.ok = false := by
    intro status hfailure
    unfold Fits at hfits
    split at hfits
    · exact hfits.not_ok hfailure
    · obtain ⟨-, mutations, -, hfits⟩ := hfits
      exact hfits.not_ok hfailure
  cases hmessage : response.message with
  | unparsed status =>
      have hfailure : response.message.failure = some status := by rw [hmessage]; rfl
      refine ⟨_, ?_, .unread call response responses hcall status (hok status hfailure) hfailure
        s.client.writeStream.lastStreamToken⟩
      rw [step_streamRead hcall, hmessage,
        FirestoreClient.onStreamRead_unparsed hpipelineOk hstarted (hok status hfailure)]
      rfl
  | response streamToken mutationResults =>
      cases hhandshake : s.client.writeStream.handshakeComplete with
      | false => exact effect_of_greeting h hcall hhandshake hmessage
      | true =>
          cases mutationResults with
          | ok results => exact effect_of_result h hfiled hfits hcall hhandshake hmessage
          | error status =>
              have hfailure : response.message.failure = some status := by rw [hmessage]; rfl
              refine ⟨_, ?_, .unread call response responses hcall status (hok status hfailure)
                hfailure streamToken⟩
              rw [step_streamRead hcall, hmessage,
                FirestoreClient.onStreamRead_undecoded hpipelineOk hstarted hhandshake
                  (hok status hfailure)]
              rfl

end Reading

/-! ## Every action -/

theorem effect_of_resumeStart {s : System} (h : s.client.ClientOk) {n : Nat}
    (hmem : n ∈ s.client.writeStream.getTokens) {maybeToken : Except Status Token}
    (hmay : MayCallBack maybeToken) :
    ∃ s', s.step (.resumeStart n maybeToken) = some (.ok s') ∧
      Effect s (.resumeStart n maybeToken) s' := by
  have hstep : s.step (.resumeStart n maybeToken)
      = some (s.after (s.client.resumeStartWithCredentials n maybeToken)) := if_pos ⟨hmem, hmay⟩
  by_cases hcount : s.client.writeStream.closeCount = n
  · subst hcount
    cases maybeToken with
    | error status =>
        refine ⟨_, ?_, .tokenFailed status hmay hmem⟩
        rw [hstep, FirestoreClient.resume_error h hmem hmay]
        rfl
    | ok token =>
        refine ⟨_, ?_, .opened token hmem⟩
        rw [hstep, FirestoreClient.resume_ok h hmem]
        rfl
  · refine ⟨_, ?_, .stale n maybeToken hcount⟩
    rw [hstep, FirestoreClient.resume_stale hcount]
    rfl

/-- **A step has one of the effects, and none of them is a failed assertion.** -/
theorem effect_of_step {s : System} (h : s.client.ClientOk) (hfiled : s.Filed)
    (hreadable : s.Readable) {a : Action} {r : Except String System} (hstep : s.step a = some r) :
    ∃ s', r = .ok s' ∧ Effect s a s' := by
  suffices hsuffices : ∃ s', s.step a = some (.ok s') ∧ Effect s a s' by
    obtain ⟨s', hs', heffect⟩ := hsuffices
    exact ⟨s', Option.some.inj (hstep.symm.trans hs'), heffect⟩
  cases a with
  | setData path data =>
      refine ⟨_, ?_, .issued path data⟩
      simp only [step, FirestoreClient.writeMutations_eq h]
      rfl
  | credentialChange user =>
      refine ⟨_, ?_, .switched user⟩
      simp only [step, FirestoreClient.handleCredentialChange_eq h]
      rfl
  | resumeStart n maybeToken =>
      simp only [step] at hstep
      split_ifs at hstep with hguard
      exact effect_of_resumeStart h hguard.1 hguard.2
  | streamRead =>
      simp only [step] at hstep
      split at hstep
      · next token requests response responses ended hcall =>
          have hcall' : s.client.writeStream.grpcStream = some
              { (⟨token, requests, [], ended⟩ : Call) with responses := response :: responses } := hcall
          exact effect_of_streamRead h hfiled
            (hreadable.responses _ hcall response (List.mem_cons_self ..)) hcall'
      · exact absurd hstep (by simp)
  | streamFinish status =>
      simp only [step] at hstep
      split at hstep
      · next call hcall =>
          split_ifs at hstep with hfinish
          obtain ⟨hopened, -⟩ := h.stream.call _ hcall
          have hstarted : s.client.writeStream.isStarted = true := by
            simp [WriteStream.isStarted, WriteStream.isOpen, hopened]
          have hok : status.ok = false := by
            unfold MayFinish at hfinish
            split at hfinish
            · next ended hended =>
                rw [hfinish]
                exact hreadable.ended call hcall ended hended
            · exact hfinish.1
          refine ⟨_, ?_, .finished call hcall status hok hfinish⟩
          simp only [step, hcall, if_pos hfinish, FirestoreClient.onStreamFinish,
            FirestoreClient.close_eq h.toPipelineOk hok hstarted]
          rfl
      · exact absurd hstep (by simp)
  | backoffElapsed =>
      simp only [step] at hstep
      split_ifs at hstep with hstate
      refine ⟨_, ?_, .backoffElapsed hstate⟩
      simp only [step, if_pos hstate, FirestoreClient.backoffElapsed_eq hstate]
      rfl
  | idleTimeout =>
      simp only [step] at hstep
      split_ifs at hstep with hidle
      refine ⟨_, ?_, .idle hidle⟩
      simp only [step, if_pos hidle, FirestoreClient.stop_eq (Or.inr (h.stream.idle hidle).2)]
      rfl
  | serve answer =>
      simp only [step] at hstep
      split at hstep
      · next call hcall =>
          obtain ⟨⟨backend, call'⟩, hserve, -⟩ := Option.map_eq_some_iff.1 hstep
          refine ⟨_, ?_, .served call hcall answer backend call' hserve⟩
          simp only [step, hcall, hserve, Option.map_some, FirestoreClient.withCall]
      · exact absurd hstep (by simp)
  | serveReleased i answer =>
      simp only [step] at hstep
      split at hstep
      · next call hcall =>
          obtain ⟨⟨backend, call'⟩, hserve, -⟩ := Option.map_eq_some_iff.1 hstep
          refine ⟨_, ?_, .servedReleased i call hcall answer backend call' hserve⟩
          simp only [step, hcall, hserve, Option.map_some]
      · exact absurd hstep (by simp)
  | restart user =>
      refine ⟨_, ?_, .booted user⟩
      simp only [step, FirestoreClient.initializeClient_eq h.queue.ordered]
      rfl

end System

end Harusali.Firestore
