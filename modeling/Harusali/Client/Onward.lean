import Harusali.Client.Invariant

set_option autoImplicit false

/-! # What a step hands on

A step of the client may ask for tokens and call callbacks; the calls it has made before stay as
they are, and the user changes only with a credential change. `Onward` says so of one operation,
`onward_of_effect` of a step. -/

namespace Harusali.Firestore

namespace WriteStream

theorem getTokens_sent (self : WriteStream) (batches : List MutationBatch) :
    (self.sent batches).getTokens = self.getTokens := by
  unfold sent
  split <;> rfl

theorem getTokens_begun (self : WriteStream) : self.getTokens <+: self.begun.getTokens := by
  unfold begun
  split
  · exact List.prefix_append _ _
  · exact List.prefix_refl _
  · exact List.prefix_refl _

theorem getTokens_tended (self : WriteStream) (pipeline : List MutationBatch) :
    self.getTokens <+: (self.tended pipeline).getTokens := by
  unfold tended markIdle
  split
  · split <;> exact List.prefix_refl _
  · exact self.getTokens_begun

end WriteStream

namespace FirestoreClient

/-- The second client is the first one with more asked for and more callbacks called. -/
structure Onward (c c' : FirestoreClient) : Prop where
  user : c'.currentUser = c.currentUser
  getTokens : c.writeStream.getTokens <+: c'.writeStream.getTokens
  notified : c.notified <+: c'.notified

theorem Onward.refl (c : FirestoreClient) : c.Onward c :=
  ⟨rfl, List.prefix_refl _, List.prefix_refl _⟩

theorem Onward.trans {c c' c'' : FirestoreClient} (h : c.Onward c') (h' : c'.Onward c'') :
    c.Onward c'' :=
  ⟨h'.user.trans h.user, h.getTokens.trans h'.getTokens, h.notified.trans h'.notified⟩

theorem onward_refill (c : FirestoreClient) : c.Onward c.refill := by
  refine ⟨rfl, ?_, List.prefix_refl _⟩
  refine List.IsPrefix.trans ?_ (WriteStream.getTokens_tended _ _)
  split
  · rewrite [WriteStream.getTokens_sent]
    exact List.prefix_refl _
  · exact List.prefix_refl _

theorem onward_settle (c : FirestoreClient) (batch : MutationBatch) (status : Status) :
    c.Onward (c.settle batch status) := by
  unfold settle notifyUser
  split
  · exact ⟨rfl, List.prefix_refl _, List.prefix_refl _⟩
  · exact ⟨rfl, List.prefix_refl _, List.prefix_append _ _⟩

theorem onward_begun (c : FirestoreClient) :
    c.Onward { c with writeStream := c.writeStream.begun } :=
  ⟨rfl, c.writeStream.getTokens_begun, List.prefix_refl _⟩

theorem onward_forgetToken (c : FirestoreClient) (status : Status) :
    c.Onward (c.forgetToken status) := by
  unfold forgetToken
  split <;> exact ⟨rfl, List.prefix_refl _, List.prefix_refl _⟩

theorem onward_reacted (c : FirestoreClient) (status : Status) : c.Onward (c.reacted status) := by
  unfold reacted
  split
  · exact .refl c
  · next batch rest _ =>
      split
      · split
        · have hfront : c.Onward { c with
              writePipeline := rest, writeStream := { c.writeStream with state := .initial } } :=
            ⟨rfl, List.prefix_refl _, List.prefix_refl _⟩
          exact (hfront.trans (onward_settle _ batch status)).trans (onward_refill _)
        · exact onward_begun c
      · exact (onward_forgetToken c status).trans (onward_begun _)

theorem onward_failed (c : FirestoreClient) (status : Status) : c.Onward (c.failed status) := by
  have hclosed : c.Onward (c.letGo status) := ⟨rfl, List.prefix_refl _, List.prefix_refl _⟩
  obtain ⟨huser, htokens, hnotified⟩ := hclosed.trans (onward_reacted (c.letGo status) status)
  exact ⟨huser, htokens, hnotified⟩

theorem onward_stopped (c : FirestoreClient) : c.Onward c.stopped := by
  refine ⟨rfl, ?_, List.prefix_refl _⟩
  show _ <+: c.writeStream.stopped.getTokens
  unfold WriteStream.stopped
  split <;> exact List.prefix_refl _

theorem onward_restarted (c : FirestoreClient) : c.Onward c.restarted :=
  ⟨rfl, (onward_stopped c).getTokens, List.prefix_refl _⟩

end FirestoreClient

namespace System

/-- The user after an action. -/
def userAfter (s : System) : Action → User
  | .credentialChange user => user
  | .restart user => user
  | _ => s.client.currentUser

/-- The writes made up to and with an action. -/
def writesAfter (s : System) : Action → WriteLog
  | .setData path data => s.writes ++ [(s.client.currentUser, toMutations path data)]
  | _ => s.writes

variable {s s' : System} {a : Action}

theorem writes_of_effect (heffect : Effect s a s') : s'.writes = s.writesAfter a := by
  cases heffect <;> rfl

theorem onward_of_effect (heffect : Effect s a s') :
    s'.client.currentUser = s.userAfter a ∧ s.kept a <+: s'.client.writeStream.getTokens ∧
      s.client.notified <+: s'.client.notified := by
  cases heffect with
  | issued path data =>
      obtain ⟨huser, htokens, hnotified⟩ :=
        (s.client.issue (toMutations path data) ⟨s.writes.length⟩).onward_refill
      exact ⟨huser, htokens, hnotified⟩
  | switched user =>
      obtain ⟨huser, htokens, hnotified⟩ := ((s.client.withUser user).onward_restarted).trans
        (FirestoreClient.onward_refill _)
      exact ⟨huser, htokens, hnotified⟩
  | stale n maybeToken hstale => exact ⟨rfl, List.prefix_refl _, List.prefix_refl _⟩
  | tokenFailed status hok hmem =>
      obtain ⟨huser, htokens, hnotified⟩ :=
        (s.client.answered s.client.writeStream.closeCount).onward_failed status
      exact ⟨huser, htokens, hnotified⟩
  | opened token hmem => exact ⟨rfl, List.prefix_refl _, List.prefix_refl _⟩
  | greeted call response responses hcall hhandshake streamToken =>
      refine ⟨rfl, ?_, List.prefix_refl _⟩
      show _ <+: (WriteStream.sent _ _).getTokens
      rewrite [WriteStream.getTokens_sent]
      exact List.prefix_refl _
  | acknowledged call response responses hcall hhandshake batch rest hpipeline hwrite hcarries
      streamToken =>
      have hfront : s.client.Onward { ((s.client.withCall { call with responses }).withToken
          streamToken).setLastStreamToken streamToken with writePipeline := rest } :=
        ⟨rfl, List.prefix_refl _, List.prefix_refl _⟩
      obtain ⟨huser, htokens, hnotified⟩ := (hfront.trans
        (FirestoreClient.onward_settle _ batch .OK)).trans (FirestoreClient.onward_refill _)
      exact ⟨huser, htokens, hnotified⟩
  | unread call response responses hcall status hok hfailure streamToken =>
      obtain ⟨huser, htokens, hnotified⟩ :=
        ((s.client.withCall { call with responses }).withToken streamToken).onward_failed status
      exact ⟨huser, htokens, hnotified⟩
  | finished call hcall status hok hfinish =>
      obtain ⟨huser, htokens, hnotified⟩ := s.client.onward_failed status
      exact ⟨huser, htokens, hnotified⟩
  | backoffElapsed hstate =>
      exact ⟨rfl, WriteStream.getTokens_begun { s.client.writeStream with state := .initial },
        List.prefix_refl _⟩
  | idle hidle =>
      obtain ⟨huser, htokens, hnotified⟩ := s.client.onward_stopped
      exact ⟨huser, htokens, hnotified⟩
  | served call hcall answer backend call' hserve =>
      exact ⟨rfl, List.prefix_refl _, List.prefix_refl _⟩
  | servedReleased i call hcall answer backend call' hserve =>
      exact ⟨rfl, List.prefix_refl _, List.prefix_refl _⟩
  | booted user => exact ⟨rfl, List.nil_prefix, List.prefix_refl _⟩

/-- The service does nothing to the client but read from its calls. -/
theorem served_quiet {answer : Answer} {i : Nat} (heffect : Effect s a s')
    (ha : a = .serve answer ∨ a = .serveReleased i answer) :
    s'.client.writeStream.getTokens = s.client.writeStream.getTokens ∧
      s'.client.notified = s.client.notified := by
  cases heffect with
  | served | servedReleased => exact ⟨rfl, rfl⟩
  | _ => exact absurd ha (by simp)

/-- What the app and the provider hand to the client, as opposed to what its calls and timers do. -/
def Action.IsTask : Action → Prop
  | .setData _ _ | .credentialChange _ | .resumeStart _ _ | .restart _ => True
  | _ => False

/-- A callback is only called when the client reads from a call or a call ends. -/
theorem notified_of_isTask {initial : Harusali.Firestore} (h : s.Ok initial)
    (heffect : Effect s a s') (ha : a.IsTask) : s'.client.notified = s.client.notified := by
  cases heffect with
  | issued | switched | stale | opened | booted => rfl
  | tokenFailed status hok hmem =>
      -- the handshake is not over, so the error is nobody's
      have hstate := FirestoreClient.starting_of_mem h.client hmem
      obtain ⟨-, hnot, -⟩ := h.client.stream.not_open (by simp [hstate])
      rcases (s.client.answered _).failed_books status with hbooks | ⟨-, -, -, hhandshake, -⟩
      · exact congrArg Books.notified hbooks
      · exact absurd (hnot.symm.trans hhandshake) (by simp)
  | greeted | acknowledged | unread | finished | backoffElapsed | idle | served | servedReleased =>
      exact ha.elim

end System

end Harusali.Firestore
