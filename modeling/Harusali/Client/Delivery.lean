import Harusali.Client.Effect

set_option autoImplicit false

/-! # Delivery

What a call and the service keep to, whatever becomes of the client: the requests of a call are
for writes that were made, an answer is for a write that has been carried out, and a write is
requested only behind the earlier writes of its user that the service has not dealt with yet.
From that the service carries the writes of a user out in order (`BackendOk`). -/

namespace Harusali.Firestore

/-- The writes made, each with the user it was made under. -/
abbrev WriteLog := List (User × List SetMutation)

namespace WriteLog

def userOf (writes : WriteLog) (write : Nat) : Option User := (writes[write]?).map Prod.fst

def mutationsOf (writes : WriteLog) (write : Nat) : List SetMutation :=
  ((writes[write]?).map Prod.snd).getD []

theorem getElem?_extend {writes writes' : WriteLog} (h : writes <+: writes') {write : Nat}
    (hlt : write < writes.length) : writes'[write]? = writes[write]? := by
  obtain ⟨more, rfl⟩ := h
  exact List.getElem?_append_left hlt

theorem lt_of_getElem? {writes : WriteLog} {write : Nat} {made : User × List SetMutation}
    (h : writes[write]? = some made) : write < writes.length := by
  by_contra hle
  rw [List.getElem?_eq_none (by omega)] at h
  exact absurd h (by simp)

/-- A write that was made stays the same write. -/
theorem getElem?_mono {writes writes' : WriteLog} (h : writes <+: writes') {write : Nat}
    {made : User × List SetMutation} (hmade : writes[write]? = some made) :
    writes'[write]? = some made := by
  rw [getElem?_extend h (lt_of_getElem? hmade), hmade]

theorem userOf_extend {writes writes' : WriteLog} (h : writes <+: writes') {write : Nat}
    (hlt : write < writes.length) : userOf writes' write = userOf writes write := by
  rw [userOf, userOf, getElem?_extend h hlt]

end WriteLog

open WriteLog (userOf mutationsOf)

theorem Request.eq_of_write? {request : Request} {write : Nat} (h : request.write? = some write) :
    ∃ mutations streamToken, request = .writeMutations mutations streamToken write := by
  cases request with
  | handshake => exact absurd h (by simp [Request.write?])
  | emptyMutationsList streamToken => exact absurd h (by simp [Request.write?])
  | writeMutations mutations streamToken write' =>
      obtain rfl : write' = write := Option.some.inj h
      exact ⟨mutations, streamToken, rfl⟩

/-- The writes requested, in order. -/
def Call.requested (call : Call) : List Nat := call.requests.filterMap Request.write?

namespace Backend

def committed (backend : Backend) : List Nat := backend.commits.map Prod.snd

/-- The service has refused the write for good. -/
def Refused (backend : Backend) (write : Nat) : Prop :=
  ∃ status, isPermanentWriteError status = true ∧ (write, status) ∈ backend.refusals

/-- The service has carried the write out or refused it for good. -/
def Dealt (backend : Backend) (write : Nat) : Prop :=
  write ∈ backend.committed ∨ backend.Refused write

/-- The service has done more. -/
structure Grows (backend backend' : Backend) : Prop where
  commits : backend.commits <+: backend'.commits
  refusals : backend.refusals <+: backend'.refusals

theorem Grows.refl (backend : Backend) : backend.Grows backend :=
  ⟨List.prefix_refl _, List.prefix_refl _⟩

theorem Grows.committed {backend backend' : Backend} (h : backend.Grows backend') {write : Nat}
    (hwrite : write ∈ backend.committed) : write ∈ backend'.committed :=
  (h.commits.map Prod.snd).subset hwrite

theorem Grows.dealt {backend backend' : Backend} (h : backend.Grows backend') {write : Nat}
    (hwrite : backend.Dealt write) : backend'.Dealt write := by
  rcases hwrite with hcommitted | ⟨status, hpermanent, hrefused⟩
  · exact Or.inl (h.committed hcommitted)
  · exact Or.inr ⟨status, hpermanent, h.refusals.subset hrefused⟩

end Backend

/-! ## A call -/

structure CallOk (writes : WriteLog) (backend : Backend) (call : Call) : Prop where
  requests : ∀ mutations streamToken write,
    Request.writeMutations mutations streamToken write ∈ call.requests →
    ∃ user, writes[write]? = some (user, mutations)
  responses : ∀ response ∈ call.responses, System.Fits writes response
  committed : ∀ response ∈ call.responses, ∀ write, response.write = some write →
    write ∈ backend.committed
  /-- A call that has ended was ended because of the request at its head. -/
  ended : ∀ status, call.ended = some status → status.ok = false ∧
    ∃ request rest, call.requests = request :: rest ∧
      ∀ write, request.write? = some write → (write, status) ∈ backend.refusals
  /-- An earlier write of the same user is requested before, unless it has been dealt with. -/
  inTurn : ∀ front request back write, call.requests = front ++ request :: back →
    request.write? = some write → ∀ earlier < write, userOf writes earlier = userOf writes write →
    earlier ∈ front.filterMap Request.write? ∨ backend.Dealt earlier

theorem fits_mono {writes writes' : WriteLog} (h : writes <+: writes') {response : Response}
    (hfits : System.Fits writes response) : System.Fits writes' response := by
  unfold System.Fits at hfits ⊢
  cases hwrite : response.write with
  | none =>
      rw [hwrite] at hfits
      exact hfits
  | some write =>
      rw [hwrite] at hfits
      obtain ⟨user, mutations, hmade, hfits⟩ := hfits
      exact ⟨user, mutations, WriteLog.getElem?_mono h hmade, hfits⟩

/-- Nothing that is done elsewhere spoils a call. -/
theorem CallOk.mono {writes writes' : WriteLog} {backend backend' : Backend} {call : Call}
    (h : CallOk writes backend call) (hwrites : writes <+: writes')
    (hgrows : backend.Grows backend') : CallOk writes' backend' call where
  requests mutations streamToken write hmem := by
    obtain ⟨user, hmade⟩ := h.requests mutations streamToken write hmem
    exact ⟨user, WriteLog.getElem?_mono hwrites hmade⟩
  responses response hmem := fits_mono hwrites (h.responses response hmem)
  committed response hmem write hwrite := hgrows.committed (h.committed response hmem write hwrite)
  ended status hended := by
    obtain ⟨hok, request, rest, hrequests, hrefused⟩ := h.ended status hended
    exact ⟨hok, request, rest, hrequests,
      fun write hwrite => hgrows.refusals.subset (hrefused write hwrite)⟩
  inTurn front request back write hsplit hwrite earlier hlt huser := by
    obtain ⟨mutations, streamToken, rfl⟩ := Request.eq_of_write? hwrite
    obtain ⟨user, hmade⟩ := h.requests mutations streamToken write (by simp [hsplit])
    have hknown := WriteLog.lt_of_getElem? hmade
    rw [WriteLog.userOf_extend hwrites hknown,
      WriteLog.userOf_extend hwrites (Nat.lt_trans hlt hknown)] at huser
    exact (h.inTurn front _ back write hsplit hwrite earlier hlt huser).imp_right hgrows.dealt

/-- A new call, with the handshake sent. -/
theorem callOk_start (writes : WriteLog) (backend : Backend) (token : Token) :
    CallOk writes backend { Call.start token with requests := [.handshake] } where
  requests := by simp
  responses := by simp [Call.start]
  committed := by simp [Call.start]
  ended := by simp [Call.start]
  inTurn front request back write hsplit hwrite := by
    cases front with
    | nil =>
        obtain ⟨rfl, -⟩ := List.cons.inj hsplit
        exact absurd hwrite (by simp [Request.write?])
    | cons first front =>
        have hlength := congrArg List.length hsplit
        simp at hlength

/-- Reading a response leaves the rest of the call. -/
theorem CallOk.read {writes : WriteLog} {backend : Backend} {call : Call} {response : Response}
    {responses : List Response}
    (h : CallOk writes backend { call with responses := response :: responses }) :
    CallOk writes backend { call with responses } :=
  { h with
    responses := fun response' hmem => h.responses response' (List.mem_cons_of_mem _ hmem)
    committed := fun response' hmem => h.committed response' (List.mem_cons_of_mem _ hmem) }

/-- More requests can be sent where they are in turn. -/
theorem CallOk.append {writes : WriteLog} {backend : Backend} {call : Call}
    (h : CallOk writes backend call) {more : List Request}
    (hmade : ∀ mutations streamToken write,
      Request.writeMutations mutations streamToken write ∈ more →
      ∃ user, writes[write]? = some (user, mutations))
    (hturn : ∀ front request back write, more = front ++ request :: back →
      request.write? = some write → ∀ earlier < write,
      userOf writes earlier = userOf writes write →
      earlier ∈ call.requested ∨ earlier ∈ front.filterMap Request.write? ∨ backend.Dealt earlier) :
    CallOk writes backend { call with requests := call.requests ++ more } where
  requests mutations streamToken write hmem := by
    rcases List.mem_append.1 hmem with hmem | hmem
    · exact h.requests mutations streamToken write hmem
    · exact hmade mutations streamToken write hmem
  responses := h.responses
  committed := h.committed
  ended status hended := by
    obtain ⟨hok, request, rest, hrequests, hrefused⟩ := h.ended status hended
    exact ⟨hok, request, rest ++ more, by simp [hrequests], hrefused⟩
  inTurn front request back write hsplit hwrite earlier hlt huser := by
    rcases List.append_eq_append_iff.1 hsplit with ⟨front', rfl, hmore⟩ | ⟨back', hcall, hback⟩
    · rcases hturn front' request back write hmore hwrite earlier hlt huser with hold | hnew | hdealt
      · exact Or.inl (by rw [List.filterMap_append]; exact List.mem_append_left _ hold)
      · exact Or.inl (by rw [List.filterMap_append]; exact List.mem_append_right _ hnew)
      · exact Or.inr hdealt
    · cases back' with
      | nil =>
          rw [List.append_nil] at hcall
          have hturn := hturn [] request back write hback.symm hwrite earlier hlt huser
          rw [Call.requested, hcall] at hturn
          simpa using hturn
      | cons request' back' =>
          obtain ⟨rfl, -⟩ := List.cons.inj hback
          exact h.inTurn front request back' write hcall hwrite earlier hlt huser

/-- The request a graceful stop adds is for no write. -/
theorem CallOk.tearDown {writes : WriteLog} {backend : Backend} {call : Call}
    (h : CallOk writes backend call) (ws : WriteStream) :
    CallOk writes backend (ws.tearDown call) := by
  unfold WriteStream.tearDown
  split
  · refine h.append (by simp) ?_
    intro front request back write hsplit hwrite
    cases front with
    | nil =>
        obtain ⟨rfl, -⟩ := List.cons.inj hsplit
        exact absurd hwrite (by simp [Request.write?])
    | cons first front =>
        have hlength := congrArg List.length hsplit
        simp at hlength
  · exact h

/-! ## The service -/

/-- The documents after these writes. -/
def documentsAfter (writes : WriteLog) (initial : Harusali.Firestore) (done : List Nat) :
    Harusali.Firestore :=
  done.foldl (fun db write => applyMutations db (mutationsOf writes write)) initial

/-- The service has carried out writes that were made, those of a user in order. -/
structure BackendOk (writes : WriteLog) (initial : Harusali.Firestore) (backend : Backend) :
    Prop where
  known : ∀ write ∈ backend.committed, write < writes.length
  documents : backend.firestore = documentsAfter writes initial backend.committed
  inOrder : ∀ pre write post, backend.committed = pre ++ write :: post → ∀ earlier < write,
    userOf writes earlier = userOf writes write → earlier ∈ pre ∨ backend.Refused earlier

theorem document_applyMutations (db : Harusali.Firestore) (mutations : List SetMutation)
    (path : DocumentPath) :
    (∃ m ∈ mutations, m.key = path ∧ (applyMutations db mutations).document path = some m.value) ∨
      (∀ m ∈ mutations, m.key ≠ path) ∧
        (applyMutations db mutations).document path = db.document path := by
  induction mutations generalizing db with
  | nil => exact Or.inr ⟨by simp, rfl⟩
  | cons m mutations ih =>
      rcases ih (db.setData m.key m.value none) with ⟨m', hm', hkey, hdoc⟩ | ⟨hothers, hdoc⟩
      · exact Or.inl ⟨m', List.mem_cons_of_mem _ hm', hkey, hdoc⟩
      · by_cases hkey : m.key = path
        · refine Or.inl ⟨m, List.mem_cons_self .., hkey, hdoc.trans ?_⟩
          rw [← hkey, Harusali.Firestore.setData_self]
        · refine Or.inr ⟨?_, hdoc.trans (Harusali.Firestore.setData_of_ne _ _ _ (Ne.symm hkey))⟩
          intro m' hm'
          rcases List.mem_cons.1 hm' with rfl | hm'
          · exact hkey
          · exact hothers m' hm'

/-- A document is what one of the writes for it that have been carried out made it, or what it was
    where there is none. -/
theorem document_documentsAfter (writes : WriteLog) (initial : Harusali.Firestore) (done : List Nat)
    (path : DocumentPath) :
    (∃ write ∈ done, ∃ m ∈ mutationsOf writes write, m.key = path ∧
        (documentsAfter writes initial done).document path = some m.value) ∨
      (∀ write ∈ done, ∀ m ∈ mutationsOf writes write, m.key ≠ path) ∧
        (documentsAfter writes initial done).document path = initial.document path := by
  induction done generalizing initial with
  | nil => exact Or.inr ⟨by simp, rfl⟩
  | cons write done ih =>
      rcases ih (applyMutations initial (mutationsOf writes write)) with
        ⟨write', hwrite', m, hm, hkey, hdoc⟩ | ⟨hothers, hdoc⟩
      · exact Or.inl ⟨write', List.mem_cons_of_mem _ hwrite', m, hm, hkey, hdoc⟩
      · rcases document_applyMutations initial (mutationsOf writes write) path with
          ⟨m, hm, hkey, hfirst⟩ | ⟨hfirst, hsame⟩
        · exact Or.inl ⟨write, List.mem_cons_self .., m, hm, hkey, hdoc.trans hfirst⟩
        · refine Or.inr ⟨?_, hdoc.trans hsame⟩
          intro write' hwrite'
          rcases List.mem_cons.1 hwrite' with rfl | hwrite'
          · exact hfirst
          · exact hothers write' hwrite'

theorem documentsAfter_mono {writes writes' : WriteLog} (h : writes <+: writes')
    (initial : Harusali.Firestore) {done : List Nat} (hknown : ∀ write ∈ done, write < writes.length) :
    documentsAfter writes' initial done = documentsAfter writes initial done := by
  unfold documentsAfter
  induction done generalizing initial with
  | nil => rfl
  | cons write done ih =>
      have hfirst : mutationsOf writes' write = mutationsOf writes write := by
        rw [mutationsOf, mutationsOf,
          WriteLog.getElem?_extend h (hknown write (List.mem_cons_self ..))]
      rw [List.foldl_cons, List.foldl_cons, hfirst]
      exact ih _ fun write' hmem => hknown write' (List.mem_cons_of_mem _ hmem)

theorem BackendOk.mono {writes writes' : WriteLog} {initial : Harusali.Firestore}
    {backend : Backend} (h : BackendOk writes initial backend) (hwrites : writes <+: writes') :
    BackendOk writes' initial backend where
  known write hmem := Nat.lt_of_lt_of_le (h.known write hmem) hwrites.length_le
  documents := by rw [documentsAfter_mono hwrites initial h.known]; exact h.documents
  inOrder pre write post hsplit earlier hlt huser := by
    have hknown := h.known write (by simp [hsplit])
    rw [WriteLog.userOf_extend hwrites hknown,
      WriteLog.userOf_extend hwrites (Nat.lt_trans hlt hknown)] at huser
    exact h.inOrder pre write post hsplit earlier hlt huser

section Serve

variable {writes : WriteLog} {initial : Harusali.Firestore} {backend backend' : Backend}
  {call call' : Call} {answer : Answer}

/-- What reading a request comes to: the call is ended because of it, the request is taken off for
    nothing, or a write is carried out. -/
theorem serve_cases (hserve : backend.serve call answer = some (backend', call')) :
    (∃ request rest status, call.requests = request :: rest ∧ call.ended = none ∧
      status.ok = false ∧ call' = { call with ended := some status } ∧
      backend' = { backend with
        refusals := backend.refusals ++ (request.write?.map fun write => (write, status)).toList } ∧
      answer = .refuse status) ∨
    (∃ request rest, call.requests = request :: rest ∧ call.ended = none ∧ request.write? = none ∧
      backend' = backend ∧
      ((request ≠ .handshake ∧ call' = { call with requests := rest }) ∨
        ∃ message : Message, message.Fits 0 ∧ answer = .accept message ∧ call' = { call with
          requests := rest, responses := call.responses ++ [⟨message, none⟩] })) ∨
    ∃ mutations streamToken write rest message,
      call.requests = .writeMutations mutations streamToken write :: rest ∧ call.ended = none ∧
      message.Fits mutations.length ∧ answer = .accept message ∧
      backend' = { backend with
        firestore := applyMutations backend.firestore mutations
        commits := backend.commits ++ [(call.token, write)] } ∧
      call' = { call with
        requests := rest, responses := call.responses ++ [⟨message, some write⟩] } := by
  unfold Backend.serve at hserve
  split at hserve
  · next request rest hended hrequests =>
      cases answer with
      | refuse status =>
          cases request with
          | handshake | emptyMutationsList | writeMutations =>
              dsimp only at hserve
              split_ifs at hserve with hok
              obtain ⟨rfl, rfl⟩ := Prod.mk.inj (Option.some.inj hserve)
              exact Or.inl ⟨_, rest, status, hrequests, hended, by simpa using hok, rfl,
                by simp [Request.write?], rfl⟩
      | accept message =>
          cases request with
          | handshake =>
              dsimp only at hserve
              split_ifs at hserve with hfits
              obtain ⟨rfl, rfl⟩ := Prod.mk.inj (Option.some.inj hserve)
              exact Or.inr (Or.inl ⟨_, rest, hrequests, hended, rfl, rfl,
                Or.inr ⟨message, hfits, rfl, rfl⟩⟩)
          | writeMutations mutations streamToken write =>
              dsimp only at hserve
              split_ifs at hserve with hfits
              obtain ⟨rfl, rfl⟩ := Prod.mk.inj (Option.some.inj hserve)
              exact Or.inr (Or.inr ⟨mutations, streamToken, write, rest, message, hrequests, hended,
                hfits, rfl, rfl, rfl⟩)
          | emptyMutationsList streamToken =>
              obtain ⟨rfl, rfl⟩ := Prod.mk.inj (Option.some.inj hserve)
              exact Or.inr (Or.inl ⟨_, rest, hrequests, hended, rfl, rfl, Or.inl ⟨by simp, rfl⟩⟩)
  · exact absurd hserve (by simp)

theorem grows_serve (hserve : backend.serve call answer = some (backend', call')) :
    backend.Grows backend' := by
  rcases serve_cases hserve with ⟨request, rest, status, -, -, -, -, rfl, -⟩ |
    ⟨-, -, -, -, -, rfl, -⟩ | ⟨mutations, streamToken, write, rest, message, -, -, -, -, rfl, -⟩
  · exact ⟨List.prefix_refl _, List.prefix_append _ _⟩
  · exact .refl _
  · exact ⟨List.prefix_append _ _, List.prefix_refl _⟩

/-- A call without its first request is in turn, where the write of that request has been dealt
    with. -/
theorem CallOk.serve (h : CallOk writes backend call)
    (hserve : backend.serve call answer = some (backend', call')) : CallOk writes backend' call' := by
  have hgrown := h.mono (List.prefix_refl _) (grows_serve hserve)
  rcases serve_cases hserve with
    ⟨request, rest, status, hrequests, -, hok, rfl, rfl, -⟩ |
    ⟨request, rest, hrequests, hended, hnone, rfl, hcall'⟩ |
    ⟨mutations, streamToken, write, rest, message, hrequests, hended, hfits, -, rfl, rfl⟩
  · refine { hgrown with ended := ?_ }
    intro status' hended'
    obtain rfl : status = status' := Option.some.inj hended'
    refine ⟨hok, request, rest, hrequests, fun write hwrite => ?_⟩
    simp [hwrite]
  · have hrest : CallOk writes backend' { call with requests := rest } := {
      requests := fun mutations streamToken write hmem =>
        h.requests mutations streamToken write (by rw [hrequests]; exact List.mem_cons_of_mem _ hmem)
      responses := h.responses
      committed := h.committed
      ended := fun status hended' => absurd (hended.symm.trans hended') (by simp)
      inTurn := fun front request' back write hsplit hwrite earlier hlt huser => by
        have hturn := h.inTurn (request :: front) request' back write
          (hrequests.trans (congrArg _ hsplit)) hwrite earlier hlt huser
        rwa [List.filterMap_cons_none hnone] at hturn }
    rcases hcall' with ⟨-, rfl⟩ | ⟨message, hfits, -, rfl⟩
    · exact hrest
    · refine { hrest with responses := ?_, committed := ?_ }
      · intro response hmem
        rcases List.mem_append.1 hmem with hmem | hmem
        · exact h.responses response hmem
        · rw [List.mem_singleton.1 hmem]
          exact hfits
      · intro response hmem write hwrite
        rcases List.mem_append.1 hmem with hmem | hmem
        · exact h.committed response hmem write hwrite
        · rw [List.mem_singleton.1 hmem] at hwrite
          exact absurd hwrite (by simp)
  · obtain ⟨user, hmade⟩ := h.requests mutations streamToken write (by simp [hrequests])
    refine ⟨?_, ?_, ?_, ?_, ?_⟩
    · intro mutations' streamToken' write' hmem
      exact h.requests mutations' streamToken' write'
        (by rw [hrequests]; exact List.mem_cons_of_mem _ hmem)
    · intro response hmem
      rcases List.mem_append.1 hmem with hmem | hmem
      · exact h.responses response hmem
      · rw [List.mem_singleton.1 hmem]
        exact ⟨user, mutations, hmade, hfits⟩
    · intro response hmem write' hwrite
      rcases List.mem_append.1 hmem with hmem | hmem
      · exact hgrown.committed response hmem write' hwrite
      · rw [List.mem_singleton.1 hmem] at hwrite
        obtain rfl : write = write' := Option.some.inj hwrite
        simp [Backend.committed]
    · exact fun status hended' => absurd (hended.symm.trans hended') (by simp)
    · intro front request' back write' hsplit hwrite earlier hlt huser
      have hturn := hgrown.inTurn (.writeMutations mutations streamToken write :: front) request'
        back write' (by rw [hrequests]; exact congrArg _ hsplit) hwrite earlier hlt huser
      rw [List.filterMap_cons_some (f := Request.write?) rfl, List.mem_cons] at hturn
      rcases hturn with (rfl | hfront) | hdealt
      · exact Or.inr (Or.inl (by simp [Backend.committed]))
      · exact Or.inl hfront
      · exact Or.inr hdealt

/-- **The service carries out what is in turn.** -/
theorem BackendOk.serve (h : BackendOk writes initial backend) (hcall : CallOk writes backend call)
    (hserve : backend.serve call answer = some (backend', call')) :
    BackendOk writes initial backend' := by
  rcases serve_cases hserve with
    ⟨request, rest, status, -, -, -, -, rfl, -⟩ | ⟨-, -, -, -, -, rfl, -⟩ |
    ⟨mutations, streamToken, write, rest, message, hrequests, -, -, -, rfl, -⟩
  · refine ⟨h.known, h.documents, fun pre write post hsplit earlier hlt huser => ?_⟩
    refine (h.inOrder pre write post hsplit earlier hlt huser).imp_right ?_
    rintro ⟨status', hpermanent, hrefused⟩
    exact ⟨status', hpermanent, List.mem_append_left _ hrefused⟩
  · exact h
  · obtain ⟨user, hmade⟩ := hcall.requests mutations streamToken write (by simp [hrequests])
    have hmutations : mutationsOf writes write = mutations := by simp [mutationsOf, hmade]
    have hcommitted : Backend.committed { backend with
        firestore := applyMutations backend.firestore mutations
        commits := backend.commits ++ [(call.token, write)] } = backend.committed ++ [write] := by
      simp [Backend.committed]
    refine ⟨?_, ?_, ?_⟩
    · intro write' hmem
      rw [hcommitted] at hmem
      rcases List.mem_append.1 hmem with hmem | hmem
      · exact h.known write' hmem
      · rw [List.mem_singleton.1 hmem]
        exact WriteLog.lt_of_getElem? hmade
    · rw [hcommitted, documentsAfter, List.foldl_append, List.foldl_cons, List.foldl_nil, hmutations,
        h.documents]
      rfl
    · intro pre write' post hsplit earlier hlt huser
      rw [hcommitted] at hsplit
      rcases List.eq_nil_or_concat post with rfl | ⟨post', last, rfl⟩
      · -- the write just carried out was at the head of the call
        obtain ⟨rfl, hlast⟩ := List.append_inj' hsplit rfl
        obtain rfl : write = write' := (List.cons.inj hlast).1
        rcases hcall.inTurn [] _ rest write hrequests rfl earlier hlt huser with hnil | hdealt
        · exact absurd hnil (by simp)
        · exact hdealt
      · have hinit : backend.committed = pre ++ write' :: post' := by
          have := congrArg List.dropLast hsplit
          simpa [List.dropLast_append_of_ne_nil, List.dropLast_cons_of_ne_nil,
            ← List.append_cons] using this
        exact h.inOrder pre write' post' hinit earlier hlt huser

/-- The service takes from a call what it puts an answer on it for. -/
theorem carries_serve {pipeline : List MutationBatch} (h : call.Carries pipeline)
    (hserve : backend.serve call answer = some (backend', call')) : call'.Carries pipeline := by
  unfold Call.Carries at h ⊢
  rcases serve_cases hserve with
    ⟨-, -, -, -, -, -, rfl, -, -⟩ | ⟨request, rest, hrequests, -, hnone, -, -⟩ |
    ⟨mutations, streamToken, write, rest, message, hrequests, -, -, -, -, rfl⟩
  · exact h
  · have hmem : none ∈ pipeline.map fun batch => some batch.write := by
      rw [← h, hrequests]
      exact List.mem_append_right _ (List.mem_map.2 ⟨request, List.mem_cons_self .., hnone⟩)
    simp at hmem
  · rw [← h, hrequests]
    simp [Request.write?]

theorem greets_serve (h : call.Greets)
    (hserve : backend.serve call answer = some (backend', call')) : call'.Greets := by
  rcases serve_cases hserve with
    ⟨-, -, -, -, -, -, rfl, -, -⟩ | ⟨request, rest, hrequests, -, -, -, hcall'⟩ |
    ⟨mutations, streamToken, write, rest, message, hrequests, -, -, -, -, rfl⟩
  · exact h
  · rcases h with ⟨hgreeting, hnil⟩ | ⟨hnil, -⟩
    · obtain ⟨rfl, rfl⟩ := List.cons.inj (hrequests.symm.trans hgreeting)
      rcases hcall' with ⟨hnot, -⟩ | ⟨message, -, -, rfl⟩
      · exact absurd rfl hnot
      · exact Or.inr ⟨rfl, message, by simp [hnil]⟩
    · exact absurd (hrequests.symm.trans hnil) (by simp)
  · rcases h with ⟨hgreeting, -⟩ | ⟨hnil, -⟩
    · exact absurd (hrequests.symm.trans hgreeting) (by simp)
    · exact absurd (hrequests.symm.trans hnil) (by simp)

end Serve

end Harusali.Firestore
