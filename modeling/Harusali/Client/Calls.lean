import Harusali.Client.Invariant

set_option autoImplicit false

/-! # Where a call comes from

A step leaves a call as it is, reads from it, adds requests for queued writes to the live one, lets
the service serve one, or opens one. What holds of the calls of every run under a condition on its
actions is proved from that: no error is reported while the service has no lasting objection, and
a write is only sent under a token of its own user. -/

namespace Harusali.Firestore

open WriteLog (userOf)

/-- The calls of the client, those it has let go of and the live one. -/
def FirestoreClient.calls (c : FirestoreClient) : List Call :=
  c.released ++ c.writeStream.grpcStream.toList

theorem FirestoreClient.mem_calls {c : FirestoreClient} {call : Call} :
    call ∈ c.calls ↔ call ∈ c.released ∨ c.writeStream.grpcStream = some call := by
  simp [calls]

theorem Call.requested_tearDown (call : Call) (ws : WriteStream) :
    (ws.tearDown call).requested = call.requested := by
  unfold WriteStream.tearDown
  split
  · simp [Call.requested, Call.send, Request.write?]
  · rfl

/-- The call is the old one, with more writes requested and fewer responses. -/
structure Succeeds (old call : Call) (more : List Nat) : Prop where
  token : call.token = old.token
  responses : ∀ response ∈ call.responses, response ∈ old.responses
  ended : call.ended = old.ended
  requested : call.requested = old.requested ++ more

theorem Succeeds.refl (call : Call) : Succeeds call call [] :=
  ⟨rfl, fun _ h => h, rfl, (List.append_nil _).symm⟩

theorem Succeeds.trans {first second third : Call} {more more' : List Nat}
    (h : Succeeds first second more) (h' : Succeeds second third more') :
    Succeeds first third (more ++ more') :=
  ⟨h'.token.trans h.token, fun response hmem => h.responses response (h'.responses response hmem),
    h'.ended.trans h.ended, by rw [h'.requested, h.requested, List.append_assoc]⟩

theorem succeeds_tearDown (call : Call) (ws : WriteStream) :
    Succeeds call (ws.tearDown call) [] := by
  refine ⟨?_, ?_, ?_, by rw [Call.requested_tearDown, List.append_nil]⟩
  · unfold WriteStream.tearDown
    split <;> rfl
  · unfold WriteStream.tearDown
    split <;> exact fun _ h => h
  · unfold WriteStream.tearDown
    split <;> rfl

theorem succeeds_read (call : Call) (response : Response) (responses : List Response) :
    Succeeds { call with responses := response :: responses } { call with responses } [] :=
  ⟨rfl, fun _ h => List.mem_cons_of_mem _ h, rfl, (List.append_nil _).symm⟩

theorem succeeds_sent (call : Call) (ws : WriteStream) (batches : List MutationBatch) :
    Succeeds call { call with requests := call.requests ++ batches.map ws.request }
      (batches.map fun batch => batch.write) := by
  refine ⟨rfl, fun _ h => h, rfl, ?_⟩
  have hwrites : (batches.map ws.request).filterMap Request.write?
      = batches.map fun batch => batch.write := by
    rw [List.filterMap_map]
    exact List.filterMap_eq_map_iff_forall_eq_some.2 fun batch _ => rfl
  rw [Call.requested, List.filterMap_append, hwrites]
  rfl

namespace FirestoreClient

/-- Filling the pipeline sends batches of the queue on the live call. -/
theorem live_refill {c : FirestoreClient} {call : Call}
    (hcall : c.refill.writeStream.grpcStream = some call) :
    ∃ (old : Call) (new : List MutationBatch), c.writeStream.grpcStream = some old ∧ (∀ batch ∈ new, batch ∈ c.queue) ∧
      Succeeds old call (new.map fun batch => batch.write) := by
  simp only [refill, grpcStream_tended] at hcall
  split_ifs at hcall
  · unfold WriteStream.sent at hcall
    split_ifs at hcall
    · exact ⟨call, [], hcall, by simp, .refl call⟩
    · obtain ⟨old, hold, rfl⟩ := Option.map_eq_some_iff.1 hcall
      refine ⟨old, _, hold, fun batch hbatch => ?_, succeeds_sent old c.writeStream _⟩
      exact List.mem_of_mem_take (List.mem_of_mem_drop hbatch)
  · exact ⟨call, [], hcall, by simp, .refl call⟩

end FirestoreClient

/-- The answer is no permanent write error, and no response that reads as one. -/
def Answer.Transient : Answer → Prop
  | .accept message => ∀ status, message.failure = some status → isPermanentWriteError status = false
  | .refuse status => isPermanentWriteError status = false

def System.Action.Transient : System.Action → Prop
  | .serve answer => answer.Transient
  | .serveReleased _ answer => answer.Transient
  | _ => True

/-- Nothing the client has yet to read from the call is a permanent write error. -/
structure Harmless (call : Call) : Prop where
  responses : ∀ response ∈ call.responses, ∀ status, response.message.failure = some status →
    isPermanentWriteError status = false
  ended : ∀ status, call.ended = some status → isPermanentWriteError status = false

theorem Harmless.serve {backend backend' : Backend} {old call : Call} {answer : Answer}
    (h : Harmless old) (hanswer : answer.Transient)
    (hserve : backend.serve old answer = some (backend', call)) : Harmless call := by
  have hmore : ∀ {message : Message} {write : Option Nat}, answer = .accept message →
      ∀ response ∈ old.responses ++ [⟨message, write⟩], ∀ status,
        response.message.failure = some status → isPermanentWriteError status = false := by
    rintro message write rfl response hmem
    rcases List.mem_append.1 hmem with hmem | hmem
    · exact h.responses response hmem
    · rw [List.mem_singleton.1 hmem]
      exact hanswer
  rcases serve_cases hserve with
    ⟨request, rest, status, -, -, -, rfl, -, rfl⟩ |
    ⟨request, rest, -, -, -, -, ⟨-, rfl⟩ | ⟨message, -, haccept, rfl⟩⟩ |
    ⟨mutations, streamToken, write, rest, message, -, -, -, haccept, -, rfl⟩
  · refine ⟨h.responses, fun status' hended => ?_⟩
    rw [← Option.some.inj hended]
    exact hanswer
  · exact ⟨h.responses, h.ended⟩
  · exact ⟨hmore haccept, h.ended⟩
  · exact ⟨hmore haccept, h.ended⟩

/-- The token of a user. -/
def User.token : User → Token
  | .unauthenticated => none
  | .authenticated uid _ => some uid

namespace System

variable {initial : Harusali.Firestore} {s s' : System} {a : Action}

theorem released_origin (h : s.Ok initial) (heffect : Effect s a s') :
    ∀ call ∈ s'.client.released, (∃ old ∈ s.client.calls, Succeeds old call []) ∨
      ∃ old ∈ s.client.released, ∃ i answer, a = .serveReleased i answer ∧
        s.backend.serve old answer = some (s'.backend, call) := by
  have hkept : ∀ call ∈ s.client.released, ∃ old ∈ s.client.calls, Succeeds old call [] :=
    fun call hmem => ⟨call, FirestoreClient.mem_calls.2 (Or.inl hmem), .refl call⟩
  have hfailed : ∀ {c : FirestoreClient} {status : Status}, status.ok = false →
      c.released = s.client.released → (∀ call, c.writeStream.grpcStream = some call →
        ∃ old ∈ s.client.calls, Succeeds old call []) →
      ∀ call ∈ (c.failed status).released, ∃ old ∈ s.client.calls, Succeeds old call [] := by
    intro c status hok hreleased hlive call hmem
    rw [(c.failed_calls hok).2, hreleased, List.mem_append, Option.mem_toList] at hmem
    exact hmem.elim (hkept call) (hlive call)
  have hstopped : ∀ {c : FirestoreClient}, c.released = s.client.released →
      c.writeStream = s.client.writeStream → StreamPre c.writePipeline c.writeStream →
      ∀ call ∈ c.stopped.released, ∃ old ∈ s.client.calls, Succeeds old call [] := by
    intro c hreleased hstream hpre call hmem
    rcases (FirestoreClient.stopped_calls hpre).2 call hmem with hmem | ⟨old, hold, rfl⟩
    · exact hkept call (hreleased ▸ hmem)
    · exact ⟨old, FirestoreClient.mem_calls.2 (Or.inr (hstream ▸ hold)), succeeds_tearDown old _⟩
  have hlive : ∀ call, s.client.writeStream.grpcStream = some call →
      ∃ old ∈ s.client.calls, Succeeds old call [] :=
    fun call hcall => ⟨call, FirestoreClient.mem_calls.2 (Or.inr hcall), .refl call⟩
  cases heffect with
  | issued | stale | opened | greeted | backoffElapsed | served =>
      exact fun call hmem => Or.inl (hkept call hmem)
  | switched user =>
      exact fun call hmem => Or.inl (hstopped (c := s.client.withUser user) rfl rfl
        h.client.stream.toStreamPre call hmem)
  | tokenFailed status hok hmem =>
      exact fun call hmem => Or.inl (hfailed (c := s.client.answered _) hok rfl hlive call hmem)
  | acknowledged call response responses hcall hhandshake batch rest hpipeline hwrite hcarries
      streamToken =>
      intro call' hmem
      refine Or.inl (hkept call' ?_)
      simp only [FirestoreClient.refill, FirestoreClient.acknowledged, FirestoreClient.settle,
        FirestoreClient.notifyUser] at hmem
      split at hmem <;> exact hmem
  | unread call response responses hcall status hok hfailure streamToken =>
      refine fun call' hmem => Or.inl (hfailed
        (c := (s.client.withCall { call with responses }).withToken streamToken) hok rfl ?_ call'
        hmem)
      intro call' hcall'
      obtain rfl : _ = call' := Option.some.inj hcall'
      exact ⟨_, FirestoreClient.mem_calls.2 (Or.inr hcall), succeeds_read call response responses⟩
  | finished call hcall status hok hfinish =>
      exact fun call hmem => Or.inl (hfailed hok rfl hlive call hmem)
  | idle hidle =>
      exact fun call hmem => Or.inl (hstopped rfl rfl h.client.stream.toStreamPre call hmem)
  | servedReleased i call hcall answer backend call' hserve =>
      intro call'' hmem
      rcases List.mem_or_eq_of_mem_set hmem with hmem | rfl
      · exact Or.inl (hkept call'' hmem)
      · exact Or.inr ⟨call, List.mem_of_getElem? hcall, i, answer, rfl, hserve⟩
  | booted user =>
      intro call hmem
      rcases List.mem_append.1 hmem with hmem | hmem
      · exact Or.inl (hkept call hmem)
      · exact Or.inl (hlive call (Option.mem_toList.1 hmem))

/-- The live call stays with its user. -/
theorem live_origin (h : s.Ok initial) (heffect : Effect s a s') :
    ∀ call, s'.client.writeStream.grpcStream = some call →
      s'.client.currentUser = s.client.currentUser ∧
      ((∃ (old : Call) (new : List MutationBatch), s.client.writeStream.grpcStream = some old ∧
          (∀ batch ∈ new, batch ∈ s'.client.queue) ∧
          Succeeds old call (new.map fun batch => batch.write)) ∨
        (∃ token, a = .resumeStart s.client.writeStream.closeCount (.ok token) ∧
          call = { Call.start token with requests := [.handshake] }) ∨
        ∃ old answer, s.client.writeStream.grpcStream = some old ∧ a = .serve answer ∧
          s.backend.serve old answer = some (s'.backend, call)) := by
  have hnone : ∀ {c : FirestoreClient} {P : Call → Prop}, c.writeStream.grpcStream = none →
      ∀ call, c.writeStream.grpcStream = some call → P call :=
    fun hnone call hcall => absurd (hnone.symm.trans hcall) (by simp)
  cases heffect with
  | issued path data =>
      intro call hcall
      obtain ⟨old, new, hold, hnew, hsucceeds⟩ := FirestoreClient.live_refill hcall
      exact ⟨rfl, Or.inl ⟨old, new, hold, hnew, hsucceeds⟩⟩
  | switched user =>
      exact hnone (FirestoreClient.grpcStream_refill h.client.stream.stopped.2.1)
  | stale | servedReleased =>
      exact fun call hcall => ⟨rfl, Or.inl ⟨call, [], hcall, by simp, .refl call⟩⟩
  | tokenFailed status hok hmem => exact hnone (FirestoreClient.failed_calls _ hok).1
  | opened token hmem =>
      intro call hcall
      exact ⟨rfl, Or.inr (Or.inl ⟨token, rfl, (Option.some.inj hcall).symm⟩)⟩
  | greeted call response responses hcall hhandshake streamToken =>
      intro call' hcall'
      obtain ⟨-, hgreets⟩ := h.client.stream.call _ hcall
      rw [hhandshake, if_neg (by simp)] at hgreets
      rw [FirestoreClient.greeted, WriteStream.sent] at hcall'
      dsimp only at hcall'
      rw [if_neg (show (s.client.withCall { call with responses }).writePipeline ≠ []
        from hgreets.1)] at hcall'
      obtain rfl : _ = call' := Option.some.inj hcall'
      refine ⟨rfl, Or.inl ⟨_, s.client.writePipeline, hcall, fun batch hbatch => ?_,
        (succeeds_read call response responses).trans (succeeds_sent _ _ _)⟩⟩
      rw [h.client.pipeline] at hbatch
      exact List.mem_of_mem_take hbatch
  | acknowledged call response responses hcall hhandshake batch rest hpipeline hwrite hcarries
      streamToken =>
      intro call' hcall'
      obtain ⟨old, new, hold, hnew, hsucceeds⟩ := FirestoreClient.live_refill hcall'
      rw [FirestoreClient.acknowledged, (FirestoreClient.settle_frame _ batch .OK).2.1] at hold
      obtain rfl : _ = old := Option.some.inj hold
      refine ⟨?_, Or.inl ⟨_, new, hcall, hnew,
        (succeeds_read call response responses).trans hsucceeds⟩⟩
      simp only [FirestoreClient.refill, FirestoreClient.acknowledged, FirestoreClient.settle,
        FirestoreClient.notifyUser]
      split <;> rfl
  | unread call response responses hcall status hok hfailure streamToken =>
      exact hnone (FirestoreClient.failed_calls _ hok).1
  | finished call hcall status hok hfinish => exact hnone (FirestoreClient.failed_calls _ hok).1
  | backoffElapsed hstate =>
      intro call hcall
      rw [FirestoreClient.grpcStream_begun] at hcall
      exact ⟨rfl, Or.inl ⟨call, [], hcall, by simp, .refl call⟩⟩
  | idle hidle => exact hnone h.client.stream.stopped.2.1
  | served call hcall answer backend call' hserve =>
      intro call'' hcall''
      obtain rfl : call' = call'' := Option.some.inj hcall''
      exact ⟨rfl, Or.inr (Or.inr ⟨call, answer, hcall, rfl, hserve⟩)⟩
  | booted user => exact hnone (FirestoreClient.grpcStream_refill rfl)

/-! ## No lasting objection -/

/-- A call is only opened under a token of the user whose queue is open. -/
def OwnToken (s : System) (a : Action) : Prop :=
  ∀ token, a = .resumeStart s.client.writeStream.closeCount (.ok token) →
    token = s.client.currentUser.token

/-- Writes are requested and carried out under tokens of their own users. -/
structure Owned (s : System) : Prop where
  calls : ∀ call ∈ s.client.calls, ∀ write ∈ call.requested, ∀ user,
    userOf s.writes write = some user → call.token = user.token
  live : ∀ call, s.client.writeStream.grpcStream = some call →
    call.token = s.client.currentUser.token
  commits : ∀ p ∈ s.backend.commits, ∀ user, userOf s.writes p.2 = some user → p.1 = user.token

theorem requested_of_serve {backend backend' : Backend} {old call : Call} {answer : Answer}
    (hserve : backend.serve old answer = some (backend', call)) :
    call.token = old.token ∧ (∀ write ∈ call.requested, write ∈ old.requested) ∧
      ∀ p ∈ backend'.commits, p ∈ backend.commits ∨ p.1 = old.token ∧ p.2 ∈ old.requested := by
  rcases serve_cases hserve with
    ⟨request, rest, status, hrequests, -, -, rfl, rfl, -⟩ |
    ⟨request, rest, hrequests, -, hnone, rfl, hcall'⟩ |
    ⟨mutations, streamToken, write, rest, message, hrequests, -, -, -, rfl, rfl⟩
  · exact ⟨rfl, fun _ hmem => hmem, fun _ hmem => Or.inl hmem⟩
  · have hrest : old.requested = rest.filterMap Request.write? := by
      rw [Call.requested, hrequests, List.filterMap_cons_none hnone]
    rcases hcall' with ⟨-, rfl⟩ | ⟨message, -, -, rfl⟩
    · exact ⟨rfl, fun _ hmem => hrest ▸ hmem, fun _ hmem => Or.inl hmem⟩
    · exact ⟨rfl, fun _ hmem => hrest ▸ hmem, fun _ hmem => Or.inl hmem⟩
  · have hrest : old.requested = write :: rest.filterMap Request.write? := by
      rw [Call.requested, hrequests, List.filterMap_cons_some (f := Request.write?) rfl]
    refine ⟨rfl, fun write' hmem => ?_, fun p hmem => ?_⟩
    · rw [hrest]
      exact List.mem_cons_of_mem _ hmem
    · rcases List.mem_append.1 hmem with hmem | hmem
      · exact Or.inl hmem
      · rw [List.mem_singleton.1 hmem, hrest]
        exact Or.inr ⟨rfl, List.mem_cons_self ..⟩

theorem known_of_requested {writes : WriteLog} {backend : Backend} {call : Call}
    (h : CallOk writes backend call) {write : Nat} (hwrite : write ∈ call.requested) :
    write < writes.length := by
  obtain ⟨request, hrequest, hwrite⟩ := List.mem_filterMap.1 hwrite
  obtain ⟨mutations, streamToken, rfl⟩ := Request.eq_of_write? hwrite
  obtain ⟨user, hmade⟩ := h.requests mutations streamToken write hrequest
  exact WriteLog.lt_of_getElem? hmade

theorem callOk_of_mem_calls (h : s.Ok initial) {call : Call} (hmem : call ∈ s.client.calls) :
    CallOk s.writes s.backend call :=
  (FirestoreClient.mem_calls.1 hmem).elim (h.released call) (h.live call)

theorem owned_commits_of_effect (howned : s.Owned) (heffect : Effect s a s') :
    ∀ p ∈ s'.backend.commits, ∀ user, userOf s.writes p.2 = some user → p.1 = user.token := by
  have hserved : ∀ {old call : Call} {backend : Backend} {answer : Answer}, old ∈ s.client.calls →
      s.backend.serve old answer = some (backend, call) →
      ∀ p ∈ backend.commits, ∀ user, userOf s.writes p.2 = some user → p.1 = user.token := by
    intro old call backend answer hold hserve p hp user huser
    rcases (requested_of_serve hserve).2.2 p hp with hp | ⟨htoken, hwrite⟩
    · exact howned.commits p hp user huser
    · rw [htoken]
      exact howned.calls old hold p.2 hwrite user huser
  cases heffect with
  | served call hcall answer backend call' hserve =>
      exact hserved (FirestoreClient.mem_calls.2 (Or.inr hcall)) hserve
  | servedReleased i call hcall answer backend call' hserve =>
      exact hserved (FirestoreClient.mem_calls.2 (Or.inl (List.mem_of_getElem? hcall))) hserve
  | issued | switched | stale | tokenFailed | opened | greeted | acknowledged | unread | finished
  | backoffElapsed | idle | booted => exact howned.commits

theorem owned_of_effect (h : s.Ok initial) (howned : s.Owned) (ha : s.OwnToken a)
    (heffect : Effect s a s') : s'.Owned := by
  have h' := ok_of_effect h heffect
  have hwrites := writes_of_entry (entry_of_effect h heffect)
  -- what was requested on an old call was requested for its user
  have hold : ∀ old ∈ s.client.calls, ∀ write ∈ old.requested, ∀ user,
      userOf s'.writes write = some user → old.token = user.token := by
    intro old hmem write hwrite user huser
    rw [WriteLog.userOf_extend hwrites (known_of_requested (callOk_of_mem_calls h hmem) hwrite)]
      at huser
    exact howned.calls old hmem write hwrite user huser
  have hlive : ∀ call, s'.client.writeStream.grpcStream = some call →
      call.token = s'.client.currentUser.token := by
    intro call hcall
    obtain ⟨huser, ⟨old, new, hsome, -, hsucceeds⟩ | ⟨token, rfl, rfl⟩ | ⟨old, answer, hsome, -, hserve⟩⟩ :=
      live_origin h heffect call hcall
    · rw [hsucceeds.token, huser]
      exact howned.live old hsome
    · rw [huser]
      exact ha token rfl
    · rw [(requested_of_serve hserve).1, huser]
      exact howned.live old hsome
  refine ⟨fun call hmem => ?_, hlive, ?_⟩
  · rcases FirestoreClient.mem_calls.1 hmem with hmem | hcall
    · rcases released_origin h heffect call hmem with ⟨old, hmem, hsucceeds⟩ | ⟨old, hmem, i, answer, -, hserve⟩
      · rw [hsucceeds.requested, List.append_nil, hsucceeds.token]
        exact hold old hmem
      · obtain ⟨htoken, hrequested, -⟩ := requested_of_serve hserve
        rw [htoken]
        exact fun write hwrite => hold old (FirestoreClient.mem_calls.2 (Or.inl hmem)) write
          (hrequested write hwrite)
    · obtain ⟨-, ⟨old, new, hsome, hnew, hsucceeds⟩ | ⟨token, -, rfl⟩ |
        ⟨old, answer, hsome, -, hserve⟩⟩ := live_origin h heffect call hcall
      · rw [hsucceeds.requested]
        intro write hwrite user huser
        rcases List.mem_append.1 hwrite with hwrite | hwrite
        · rw [hsucceeds.token]
          exact hold old (FirestoreClient.mem_calls.2 (Or.inr hsome)) write hwrite user huser
        · -- a write of the queue is one of the user whose queue is open
          obtain ⟨batch, hbatch, rfl⟩ := List.mem_map.1 hwrite
          have howner := (h'.books.user_of_row (Persistence.mem_allMutationBatches.1
            (hnew batch hbatch)) s'.client.currentUser).2 h'.client.queue.userId
          rw [hlive call hcall, Option.some.inj (huser.symm.trans howner)]
      · exact fun write hwrite => absurd hwrite (by simp [Call.requested, Request.write?])
      · obtain ⟨htoken, hrequested, -⟩ := requested_of_serve hserve
        rw [htoken]
        exact fun write hwrite => hold old (FirestoreClient.mem_calls.2 (Or.inr hsome)) write
          (hrequested write hwrite)
  · intro p hp user huser
    have hknown := (backend_of_effect h heffect).2.known p.2 (List.mem_map_of_mem (f := Prod.snd) hp)
    rw [WriteLog.userOf_extend hwrites hknown] at huser
    exact owned_commits_of_effect howned heffect p hp user huser

end System

end Harusali.Firestore
