import Harusali.Client.Guarantees

set_option autoImplicit false

/-! # The queue can be drained

Whatever has happened, the client is never stuck: from every state a run reaches, the answers of
the service and of the credentials and the timers alone can lead to a state in which the queue of
the current user is empty. The stream is closed if it is in the middle of something, opened anew,
and then every write of the queue is sent and acknowledged (`Clean` is the state in between). -/

namespace Harusali.Firestore

open WriteLog (userOf)

/-- An action that is not the app's, the user's or the system's. -/
def System.Action.Unprompted : System.Action → Prop
  | .setData _ _ => False
  | .credentialChange _ => False
  | .restart _ => False
  | _ => True

/-- The stream is ready for writes, and the service has answered for nothing that is on the call. -/
def WriteStream.Clean (ws : WriteStream) : Prop :=
  ws.ready = true ∧ ∃ token requests, ws.grpcStream = some ⟨token, requests, [], none⟩

theorem WriteStream.Clean.sent {ws : WriteStream} (h : ws.Clean) (batches : List MutationBatch) :
    (ws.sent batches).Clean := by
  obtain ⟨hready, token, requests, hcall⟩ := h
  refine ⟨by rw [WriteStream.ready_sent, hready], ?_⟩
  by_cases hnil : batches = []
  · rw [hnil, WriteStream.sent_nil]
    exact ⟨token, requests, hcall⟩
  · refine ⟨token, requests ++ batches.map ws.request, ?_⟩
    rw [WriteStream.sent, if_neg hnil, hcall]
    rfl

theorem WriteStream.Clean.tended {ws : WriteStream} (h : ws.Clean) (pipeline : List MutationBatch) :
    (ws.tended pipeline).Clean := by
  obtain ⟨hready, token, requests, hcall⟩ := h
  obtain ⟨hopen, -⟩ := Bool.and_eq_true_iff.1 hready
  refine ⟨?_, token, requests, by rw [FirestoreClient.grpcStream_tended, hcall]⟩
  unfold WriteStream.tended WriteStream.markIdle
  split_ifs
  · exact hready
  · rw [WriteStream.begun_of_isStarted (by simp [WriteStream.isStarted, hopen])]
    exact hready

theorem FirestoreClient.clean_refill {c : FirestoreClient} (h : c.writeStream.Clean) :
    c.refill.writeStream.Clean := by
  simp only [FirestoreClient.refill, h.1, if_true]
  exact (h.sent _).tended _

namespace FirestoreClient

variable {c : FirestoreClient} {call : Call} {streamToken : ByteString} {batch : MutationBatch}

theorem clean_acknowledged (call : Call) (hready : c.writeStream.ready = true) (hresponses : call.responses = [])
    (hended : call.ended = none) (pipeline : List MutationBatch) :
    ((c.withCall call).acknowledged streamToken batch pipeline).writeStream.Clean := by
  rw [acknowledged, (settle_frame _ batch .OK).2.1]
  refine ⟨hready, call.token, call.requests, ?_⟩
  rw [← hresponses, ← hended]
  rfl

theorem queue_acknowledged (h : c.QueueOk) {rest : List MutationBatch}
    (hqueue : c.queue = batch :: rest) (pipeline : List MutationBatch) :
    ((c.withCall call).acknowledged streamToken batch pipeline).queue = rest := by
  have hstored := h.setLastStreamToken streamToken
  exact queue_settle
    (c := { ((c.withCall call).withToken streamToken).setLastStreamToken streamToken with
      writePipeline := pipeline })
    ⟨hstored.ordered, hstored.positive, hstored.below, hstored.userId⟩ hqueue .OK

end FirestoreClient

namespace System

variable {initial : Harusali.Firestore} {s t : System}

/-- The system gets from one state to the other by itself. -/
def Reaches (s t : System) : Prop :=
  ∃ more : List Action, (∀ a ∈ more, a.Unprompted) ∧ machine.run (.ok s) more = some (.ok t)

theorem Reaches.refl (s : System) : s.Reaches s := ⟨[], by simp, rfl⟩

theorem Reaches.trans {u : System} (h : s.Reaches t) (h' : t.Reaches u) : s.Reaches u := by
  obtain ⟨more, hmore, hrun⟩ := h
  obtain ⟨more', hmore', hrun'⟩ := h'
  refine ⟨more ++ more', fun a ha => ?_, Machine.run_append.2 ⟨_, hrun, hrun'⟩⟩
  exact (List.mem_append.1 ha).elim (hmore a) (hmore' a)

theorem reaches_of_step {a : Action} (hstep : s.step a = some (.ok t)) (ha : a.Unprompted) :
    s.Reaches t :=
  ⟨[a], by simpa using ha, Machine.run_singleton.2 hstep⟩

/-! ## One write -/

/-- The service acknowledges the first write of the queue. -/
theorem reaches_acknowledged (h : s.Ok initial) (hclean : s.client.writeStream.Clean)
    {batch : MutationBatch} {rest : List MutationBatch} (hqueue : s.client.queue = batch :: rest) :
    ∃ t : System, s.Reaches t ∧ t.Ok initial ∧ t.client.writeStream.Clean ∧ t.client.queue = rest := by
  obtain ⟨hready, token, requests, hcall⟩ := hclean
  obtain ⟨-, hhandshake⟩ := Bool.and_eq_true_iff.1 hready
  have hpipeline : s.client.writePipeline = batch :: rest.take 9 := by
    rw [h.client.pipeline, hqueue, kMaxPendingWrites, List.take_succ_cons]
  obtain ⟨-, hcarries⟩ := h.client.stream.call _ hcall
  rw [if_pos hhandshake, hpipeline] at hcarries
  -- the request at the head of the call is for this write
  obtain ⟨mutations, streamToken, others, rfl⟩ : ∃ mutations streamToken others,
      requests = .writeMutations mutations streamToken batch.write :: others := by
    cases requests with
    | nil => exact absurd hcarries (by simp [Call.Carries])
    | cons request others =>
        obtain ⟨mutations, streamToken, rfl⟩ :=
          Request.eq_of_write? (List.cons.inj hcarries).1
        exact ⟨mutations, streamToken, others, rfl⟩
  let response : Response := ⟨.response [] (.ok mutations.length), some batch.write⟩
  let served : System := { s with
    backend := { s.backend with
      firestore := applyMutations s.backend.firestore mutations
      commits := s.backend.commits ++ [(token, batch.write)] }
    client := s.client.withCall ⟨token, others, [response], none⟩ }
  have hserve : s.step (.serve (.accept response.message)) = some (.ok served) := by
    simp only [step, hcall, Backend.serve, response]
    rw [if_pos (show Message.Fits mutations.length (.response [] (.ok mutations.length)) from rfl)]
    rfl
  obtain ⟨_, hserved, -, hservedOk⟩ := ok_of_step h hserve
  obtain rfl := Except.ok.inj hserved
  have hservedCall : served.client.writeStream.grpcStream
      = some { (⟨token, others, [], none⟩ : Call) with responses := response :: [] } := rfl
  obtain ⟨t, hread, heffect⟩ := effect_of_streamRead hservedOk.client hservedOk.filed
    (hservedOk.readable.responses _ hservedCall response (List.mem_cons_self ..)) hservedCall
  refine ⟨t, (reaches_of_step hserve trivial).trans (reaches_of_step hread trivial),
    ok_of_effect hservedOk heffect, ?_⟩
  cases heffect with
  | greeted call response' responses hcall' hnot streamToken =>
      exact absurd (hnot.symm.trans hhandshake) (by simp)
  | unread call response' responses hcall' status hok hfailure streamToken =>
      have hresponse := congrArg Call.responses (Option.some.inj (hservedCall.symm.trans hcall'))
      rw [← (List.cons.inj hresponse).1] at hfailure
      exact absurd hfailure (by simp [response, Message.failure])
  | acknowledged call response' responses hcall' _ batch' rest' hpipeline' hwrite hcarries' streamToken =>
      have hsame := Option.some.inj (hservedCall.symm.trans hcall')
      have hresponses := (List.cons.inj (congrArg Call.responses hsame)).2
      have hended : none = call.ended := congrArg Call.ended hsame
      obtain ⟨rfl, -⟩ := List.cons.inj (hpipeline.symm.trans hpipeline')
      refine ⟨FirestoreClient.clean_refill
        (FirestoreClient.clean_acknowledged (c := served.client) { call with responses }
          hready hresponses.symm hended.symm _), ?_⟩
      exact FirestoreClient.queue_acknowledged (c := served.client) hservedOk.client.queue hqueue _

/-- A clean stream drains the queue, one write after the other. -/
theorem drained_of_clean (h : s.Ok initial) (hclean : s.client.writeStream.Clean) :
    ∃ t : System, s.Reaches t ∧ t.client.queue = [] := by
  generalize hqueue : s.client.queue = queue
  induction queue generalizing s with
  | nil => exact ⟨s, .refl s, hqueue⟩
  | cons batch rest ih =>
      obtain ⟨t, hreach, ht, htclean, htqueue⟩ := reaches_acknowledged h hclean hqueue
      obtain ⟨u, hreach', hu⟩ := ih ht htclean htqueue
      exact ⟨u, hreach.trans hreach', hu⟩

/-! ## Opening the stream -/

/-- A stream that is starting gets its token and the answer to its handshake. -/
theorem clean_of_starting (h : s.Ok initial) (hstate : s.client.writeStream.state = .starting) :
    ∃ t : System, s.Reaches t ∧ t.Ok initial ∧ t.client.writeStream.Clean := by
  have hmem : s.client.writeStream.closeCount ∈ s.client.writeStream.getTokens := by
    refine List.count_pos_iff.1 ?_
    rw [h.client.stream.tokens.current, if_pos hstate]
    exact Nat.one_pos
  obtain ⟨-, hhandshake, -⟩ := h.client.stream.not_open (by simp [hstate])
  let opened : System := { s with
    client := { s.client with
      writeStream := FirestoreClient.opened
        (s.client.answered s.client.writeStream.closeCount).writeStream none } }
  have hresume : s.step (.resumeStart s.client.writeStream.closeCount (.ok none))
      = some (.ok opened) := by
    simp only [step, if_pos (show _ ∧ MayCallBack (.ok none) from ⟨hmem, trivial⟩),
      FirestoreClient.resume_ok h.client hmem]
    rfl
  obtain ⟨_, hopened, -, hopenedOk⟩ := ok_of_step h hresume
  obtain rfl := Except.ok.inj hopened
  let served : System := { opened with
    client := opened.client.withCall ⟨none, [], [⟨.response [] (.ok 0), none⟩], none⟩ }
  have hserve : opened.step (.serve (.accept (.response [] (.ok 0)))) = some (.ok served) := rfl
  obtain ⟨_, hserved, -, hservedOk⟩ := ok_of_step hopenedOk hserve
  obtain rfl := Except.ok.inj hserved
  have hservedCall : served.client.writeStream.grpcStream
      = some { (⟨none, [], [], none⟩ : Call) with
        responses := ⟨.response [] (.ok 0), none⟩ :: [] } := rfl
  let greeted : System := { served with
    client := (served.client.withCall ⟨none, [], [], none⟩).greeted [] }
  have hread : served.step .streamRead = some (.ok greeted) := by
    rw [step_streamRead hservedCall,
      FirestoreClient.onStreamRead_greeted (c := served.client.withCall _) rfl hhandshake]
    rfl
  obtain ⟨_, hgreeted, -, hgreetedOk⟩ := ok_of_step hservedOk hread
  obtain rfl := Except.ok.inj hgreeted
  refine ⟨greeted, (reaches_of_step hresume trivial).trans ((reaches_of_step hserve trivial).trans
    (reaches_of_step hread trivial)), hgreetedOk, ?_⟩
  exact WriteStream.Clean.sent ⟨rfl, none, [], rfl⟩ _

/-- Without a call the stream is opened if there is anything to send. -/
theorem clean_of_closed (h : s.Ok initial) (hnone : s.client.writeStream.grpcStream = none)
    (hqueue : s.client.queue ≠ []) :
    ∃ t : System, s.Reaches t ∧ t.Ok initial ∧ t.client.writeStream.Clean := by
  have hpipeline : s.client.writePipeline ≠ [] := by
    rw [h.client.pipeline]
    simpa [kMaxPendingWrites] using hqueue
  have hstarted := h.client.stream.started hpipeline
  cases hstate : s.client.writeStream.state with
  | starting => exact clean_of_starting h hstate
  | backoff =>
      have helapsed : s.step .backoffElapsed = some (.ok { s with
          client := { s.client with
            writeStream := { s.client.writeStream with state := .initial }.begun } }) := by
        simp only [step, if_pos hstate, FirestoreClient.backoffElapsed_eq hstate]
        rfl
      obtain ⟨_, hopening, -, hok⟩ := ok_of_step h helapsed
      obtain rfl := Except.ok.inj hopening
      obtain ⟨t, hreach, ht⟩ := clean_of_starting hok rfl
      exact ⟨t, (reaches_of_step helapsed trivial).trans hreach, ht⟩
  | opened =>
      obtain ⟨call, hcall⟩ := h.client.stream.opened hstate
      exact absurd (hnone.symm.trans hcall) (by simp)
  | initial | error => simp [WriteStream.isStarted, WriteStream.isOpen, hstate] at hstarted

/-- Whatever the stream is doing, it can be brought to a clean state, unless the queue is empty. -/
theorem clean_or_empty (h : s.Ok initial) :
    ∃ t : System, s.Reaches t ∧ t.Ok initial ∧
      (t.client.queue = [] ∨ t.client.writeStream.Clean) := by
  cases hcall : s.client.writeStream.grpcStream with
  | none =>
      by_cases hqueue : s.client.queue = []
      · exact ⟨s, .refl s, h, Or.inl hqueue⟩
      · obtain ⟨t, hreach, ht, hclean⟩ := clean_of_closed h hcall hqueue
        exact ⟨t, hreach, ht, Or.inr hclean⟩
  | some call =>
      obtain ⟨hopened, -⟩ := h.client.stream.call call hcall
      have hstarted : s.client.writeStream.isStarted = true := by
        simp [WriteStream.isStarted, WriteStream.isOpen, hopened]
      obtain ⟨status, hok, hfinish⟩ : ∃ status : Status, status.ok = false ∧ MayFinish call status := by
        cases hended : call.ended with
        | none =>
            refine ⟨⟨.unavailable, ""⟩, rfl, ?_⟩
            simp only [MayFinish, hended]
            exact ⟨rfl, rfl⟩
        | some ended =>
            refine ⟨ended, ((h.live call hcall).ended ended hended).1, ?_⟩
            simp only [MayFinish, hended]
      have hclose : s.step (.streamFinish status)
          = some (.ok { s with client := s.client.failed status }) := by
        simp only [step, hcall, if_pos hfinish, FirestoreClient.onStreamFinish,
          FirestoreClient.close_eq h.client.toPipelineOk hok hstarted]
        rfl
      obtain ⟨t, hclosed, -, htOk⟩ := ok_of_step h hclose
      obtain rfl := Except.ok.inj hclosed
      by_cases hqueue : (s.client.failed status).queue = []
      · exact ⟨_, reaches_of_step hclose trivial, htOk, Or.inl hqueue⟩
      · obtain ⟨u, hreach, hu, hclean⟩ :=
          clean_of_closed htOk (s.client.failed_calls hok).1 hqueue
        exact ⟨u, (reaches_of_step hclose trivial).trans hreach, hu, Or.inr hclean⟩

/-! ## The writes are settled -/

theorem user_failed (c : FirestoreClient) (status : Status) :
    (c.failed status).currentUser = c.currentUser := by
  unfold FirestoreClient.failed FirestoreClient.reacted
  split
  · rfl
  · next batch rest hpipeline =>
      split_ifs
      · simp only [FirestoreClient.refill, FirestoreClient.settle, FirestoreClient.notifyUser]
        split <;> rfl
      · rfl
      · unfold FirestoreClient.forgetToken
        split <;> rfl

/-- By itself the system changes neither the user nor the writes. -/
theorem frame_of_unprompted {a : Action} (h : s.Ok initial) (ha : a.Unprompted)
    (heffect : Effect s a t) : t.client.currentUser = s.client.currentUser ∧ t.writes = s.writes := by
  refine ⟨?_, ?_⟩
  · cases heffect with
    | issued | switched | booted => exact absurd ha id
    | stale | opened | greeted | backoffElapsed | idle | served | servedReleased => rfl
    | tokenFailed status hok hmem => exact user_failed (s.client.answered _) status
    | acknowledged call response responses hcall hhandshake batch rest hpipeline hwrite hcarries
        streamToken =>
        simp only [FirestoreClient.refill, FirestoreClient.acknowledged, FirestoreClient.settle,
          FirestoreClient.notifyUser]
        split <;> rfl
    | unread call response responses hcall status hok hfailure streamToken =>
        exact user_failed ((s.client.withCall _).withToken streamToken) status
    | finished call hcall status hok hfinish => exact user_failed s.client status
  · cases entry_of_effect h heffect with
    | none _ _ _ _ hwrites => exact hwrites
    | settled _ _ _ _ _ _ _ _ _ hwrites => exact hwrites
    | filed | restarted => exact absurd ha id

theorem frame_of_reaches (h : s.Ok initial) (hreach : s.Reaches t) :
    t.Ok initial ∧ t.client.currentUser = s.client.currentUser ∧ t.writes = s.writes := by
  obtain ⟨more, hmore, hrun⟩ := hreach
  have hframe : ∀ r, machine.run (.ok s) more = some r → (∀ a ∈ more, a.Unprompted) →
      ∃ t, r = .ok t ∧ t.Ok initial ∧ t.client.currentUser = s.client.currentUser ∧
        t.writes = s.writes := by
    intro r hrun
    refine Machine.run_induction (P := fun more r => (∀ a ∈ more, a.Unprompted) →
      ∃ t, r = .ok t ∧ t.Ok initial ∧ t.client.currentUser = s.client.currentUser ∧
        t.writes = s.writes) (fun _ => ⟨s, rfl, h, rfl, rfl⟩) ?_ hrun
    intro more r a r' _ hstep ih hall
    obtain ⟨u, rfl, hu, huser, hwrites⟩ := ih fun a ha => hall a (List.mem_append_left _ ha)
    obtain ⟨u', rfl, heffect, hu'⟩ := ok_of_step hu hstep
    obtain ⟨huser', hwrites'⟩ := frame_of_unprompted hu (hall a (by simp)) heffect
    exact ⟨u', rfl, hu', huser'.trans huser, hwrites'.trans hwrites⟩
  obtain ⟨t', heq, ht⟩ := hframe _ hrun hmore
  rw [Except.ok.inj heq]
  exact ht

/-- **The client never gets stuck.** Every run can be continued, without the app doing anything, to
    a state in which every write of the current user is settled. -/
theorem writes_can_settle {user : User} {firestore : Harusali.Firestore} {actions : List Action}
    (hrun : machine.run (install user firestore) actions = some (.ok s)) :
    ∃ (more : List Action) (t : System), (∀ a ∈ more, a.Unprompted) ∧
      machine.run (install user firestore) (actions ++ more) = some (.ok t) ∧
      t.client.currentUser = s.client.currentUser ∧ t.writes = s.writes ∧
      ∀ write mutations, t.writes[write]? = some (t.client.currentUser, mutations) →
        ∃ status, (write, status) ∈ t.client.settled := by
  have hok := ok_of_run_ok hrun
  obtain ⟨u, hreach, hu, hstate⟩ := clean_or_empty hok
  obtain ⟨t, hreach', hempty⟩ : ∃ t : System, u.Reaches t ∧ t.client.queue = [] := by
    rcases hstate with hempty | hclean
    · exact ⟨u, .refl u, hempty⟩
    · exact drained_of_clean hu hclean
  obtain ⟨htOk, huser, hwrites⟩ := frame_of_reaches hok (hreach.trans hreach')
  obtain ⟨more, hmore, hcontinued⟩ := hreach.trans hreach'
  refine ⟨more, t, hmore, Machine.run_append.2 ⟨_, hrun, hcontinued⟩, huser, hwrites, ?_⟩
  intro write mutations hmade
  rcases htOk.books.sound.waits_or_settled (WriteLog.lt_of_getElem? hmade) with hwaits | hsettled
  · -- it would be in the queue of the current user, which is empty
    have howner : userOf t.writes write = some t.client.currentUser := by
      rw [WriteLog.userOf, hmade]
      rfl
    have hwaiting := htOk.books.waitingFor t.client.currentUser
    rw [← htOk.client.queue.userId, show t.client.persistence.allMutationBatches
      t.client.mutationQueue.userId = [] from hempty, List.map_nil] at hwaiting
    have hmem : write ∈ (t.client.books.outbox t.writes t.processStart).waitingFor
        t.client.currentUser := Outbox.mem_ofKey.2 ⟨hwaits, howner⟩
    rw [hwaiting] at hmem
    exact absurd hmem List.not_mem_nil
  · obtain ⟨p, hp, rfl⟩ := List.mem_map.1 hsettled
    exact ⟨p.2, hp⟩

theorem writes_can_settle_sampleSent :
    ∃ s, machine.run (install sampleUser emptyStore) sampleSent = some (.ok s) ∧
      ∃ (more : List Action) (t : System), (∀ a ∈ more, a.Unprompted) ∧
        machine.run (install sampleUser emptyStore) (sampleSent ++ more) = some (.ok t) ∧
        t.client.currentUser = s.client.currentUser ∧ t.writes = s.writes ∧
        ∀ write mutations, t.writes[write]? = some (t.client.currentUser, mutations) →
          ∃ status, (write, status) ∈ t.client.settled := by
  obtain ⟨s, hrun, -⟩ := exists_ok_run sampleSent (fun _ => true) (by decide)
  exact ⟨s, hrun, writes_can_settle hrun⟩

end System

end Harusali.Firestore
