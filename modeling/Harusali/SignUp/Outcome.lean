import Harusali.SignUp.Invariant

set_option autoImplicit false

/-! # How attempts end

What the invariants say about one attempt: it reports once, a reported success is backed by the
account and its document from then on, and a reported failure has left nothing behind exactly
when no `setData` was refused. -/

namespace Harusali.SignUpFlow

/-! ## The log only grows -/

/-- `s'` continues the log of `s`, and no account has gone. -/
structure Extends (s s' : SignUpFlow) : Prop where
  attempts : s.attempts <+: s'.attempts
  returned : s.returned <+: s'.returned
  completed : s.completed <+: s'.completed
  accounts : ∀ account ∈ s.accounts.all, account ∈ s'.accounts.all

theorem Extends.refl (s : SignUpFlow) : s.Extends s :=
  ⟨List.prefix_rfl, List.prefix_rfl, List.prefix_rfl, fun _ h => h⟩

theorem Extends.trans {s t u : SignUpFlow} (h : s.Extends t) (h' : t.Extends u) : s.Extends u :=
  ⟨h.attempts.trans h'.attempts, h.returned.trans h'.returned, h.completed.trans h'.completed,
    fun account hmem => h'.accounts account (h.accounts account hmem)⟩

theorem extends_step {s s' : SignUpFlow} {action : Action}
    (hstep : machine.step s action = some s') : s.Extends s' := by
  cases step_of_machine hstep with
  | tapNothing hguard => exact Extends.refl s
  | tapSignUp htap => exact { Extends.refl s with attempts := List.prefix_append _ _ }
  | createUserError hr => exact { Extends.refl s with completed := List.prefix_append _ _ }
  | createUserSuccess hr hcreate =>
      exact { Extends.refl s with
        returned := List.prefix_append _ _
        accounts := Accounts.createUser_subset hcreate }
  | setDataError hr => exact { Extends.refl s with completed := List.prefix_append _ _ }
  | setDataSuccess hr => exact { Extends.refl s with completed := List.prefix_append _ _ }
  | terminate => exact { Extends.refl s with }

theorem extends_run {s s' : SignUpFlow} {actions : List Action}
    (hrun : machine.run s actions = some s') : s.Extends s' :=
  Machine.run_preserves (P := s.Extends) (fun _ _ _ hstep h => h.trans (extends_step hstep)) hrun
    (Extends.refl s)

theorem getElem?_mono {α : Type} {l l' : List α} {k : Nat} {a : α} (hl : l <+: l')
    (h : l[k]? = some a) : l'[k]? = some a := by
  obtain ⟨l'', rfl⟩ := hl
  exact getElem?_append_of_eq_some l'' h

/-! ## One report -/

/-- An attempt that is neither pending nor lost has reported exactly once. -/
theorem Ledger.reports_eq_one {s : SignUpFlow} (h : s.Ledger) {k : Nat}
    (hk : k < s.attempts.length) (hflight : s.inFlight k = 0) (hlost : k ∉ s.lost) :
    s.reports k = 1 := by
  have hsum := h k
  have hloss : s.losses k = 0 := Pool.count_eq_zero.2 fun j hj heq => hlost (heq ▸ hj)
  rw [if_pos hk] at hsum
  omega

/-- An attempt whose `createUser` is in flight has not reported. -/
theorem Ledger.not_completed {s : SignUpFlow} (h : s.Ledger) {r : CreateUserRequest}
    (hr : r ∈ s.createUsers) (result : Result NSError) :
    (r.completion.attempt, result) ∉ s.completed := by
  intro hmem
  have hk := h r.completion.attempt
  have hflight := Pool.count_pos (·.completion.attempt) hr
  have hreport : 0 < Pool.count Prod.fst s.completed r.completion.attempt :=
    Pool.count_pos Prod.fst hmem
  simp only [inFlight, reports] at hk
  split_ifs at hk <;> omega

theorem Records.returned_attempt {s : SignUpFlow} (h : s.Records) {k k' : Nat} {uid : Uid}
    (hk : (k, uid) ∈ s.returned) (hk' : (k', uid) ∈ s.returned) : k = k' :=
  congrArg Prod.fst (List.inj_on_of_nodup_map h.uid_nodup hk hk' rfl)

theorem Records.returned_uid {s : SignUpFlow} (h : s.Records) {k : Nat} {uid uid' : Uid}
    (hk : (k, uid) ∈ s.returned) (hk' : (k, uid') ∈ s.returned) : uid = uid' :=
  congrArg Prod.snd (List.inj_on_of_nodup_map h.attempt_nodup hk hk' rfl)

/-- The account of attempt `a` exists, and so does its document, holding what `a` was to store. -/
structure Registered (s : SignUpFlow) (a : Attempt) (uid : Uid) : Prop where
  account : s.accounts.Has uid
  document : ∃ data, s.firestore.document ⟨"User", uid⟩ = some data ∧ a.IsProfile data

/-- A reported success is registered under the uid that was returned to the attempt. -/
theorem Records.registered {s : SignUpFlow} (h : s.Records) {k : Nat} {value : String}
    (hk : (k, .success value) ∈ s.completed) :
    ∃ a uid, s.attempts[k]? = some a ∧ (k, uid) ∈ s.returned ∧ s.Registered a uid := by
  obtain ⟨a, uid, data, ha, hreturned, hdocument, hprofile⟩ := h.success k value hk
  obtain ⟨_, _, -, haccount⟩ := h.returned k uid hreturned
  exact ⟨a, uid, ha, hreturned,
    ⟨List.mem_map_of_mem (f := Account.uid) haccount, data, hdocument, hprofile⟩⟩

/-- Registered once reported, registered ever after, whatever else happens. -/
theorem registered_run {s s' : SignUpFlow} {actions : List Action} (h : s.Inv)
    (hrun : machine.run s actions = some s') {k : Nat} {value : String} {a : Attempt} {uid : Uid}
    (hk : (k, .success value) ∈ s.completed) (ha : s.attempts[k]? = some a)
    (huid : (k, uid) ∈ s.returned) : s'.Registered a uid := by
  have hext := extends_run hrun
  have hrecords := (inv_run h hrun).records
  obtain ⟨a', uid', ha', huid', hregistered⟩ := hrecords.registered (hext.completed.subset hk)
  obtain rfl : uid' = uid := hrecords.returned_uid huid' (hext.returned.subset huid)
  obtain rfl : a' = a := by
    rw [getElem?_mono hext.attempts ha] at ha'
    exact (Option.some.inj ha').symm
  exact hregistered

/-! ## Documents -/

/-- Only a `setData` response changes a document, and only the one its request names. -/
theorem document_step {s s' : SignUpFlow} {action : Action} {path : DocumentPath}
    (hstep : machine.step s action = some s')
    (h : s'.firestore.document path ≠ s.firestore.document path) :
    ∃ r, action = .setDataResponse r none ∧ r ∈ s.setDatas ∧ r.path = path := by
  cases step_of_machine hstep with
  | @setDataSuccess r hr =>
      by_cases hpath : path = r.path
      · exact ⟨r, rfl, hr, hpath.symm⟩
      · exact absurd (Firestore.setData_of_ne s.firestore r.data none hpath) h
  | _ => exact absurd rfl h

/-- A `setData` request that writes the document of attempt `k` belongs to attempt `k`. -/
theorem Records.setData_own {s : SignUpFlow} (h : s.Records) {r : SetDataRequest}
    (hr : r ∈ s.setDatas) {k : Nat} {uid : Uid} (hk : (k, uid) ∈ s.returned)
    (hpath : r.path = ⟨"User", uid⟩) : r.completion.attempt = k := by
  obtain ⟨_, uid', -, hreturned, hpath', -⟩ := h.setData r hr
  obtain rfl : uid' = uid := by
    rw [hpath'] at hpath
    exact congrArg DocumentPath.document hpath
  exact h.returned_attempt hreturned hk

/-! ## Failure -/

/-- The two stores without what attempt `k` put into them. -/
def storesWithout (s : SignUpFlow) (k : Nat) : List Account × (DocumentPath → Option DocumentData) :=
  (s.accounts.all.filter fun account => (k, account.uid) ∉ s.returned,
   fun path =>
    if path.collection = "User" ∧ (k, path.document) ∈ s.returned then none
    else s.firestore.document path)

/-- Attempt `k` has left the stores as if it had never been made. -/
structure AllOrNothing (s : SignUpFlow) (k : Nat) : Prop where
  stores : s.storesWithout k = (s.accounts.all, s.firestore.document)
  /-- No account it created remains without its document. -/
  noOrphan : ∀ account ∈ s.accounts.all, (k, account.uid) ∈ s.returned →
    (s.firestore.document ⟨"User", account.uid⟩).isSome
  /-- No account it created remains to hold its address, and so to reject a later attempt. -/
  retry : ∀ account ∈ s.accounts.all, (k, account.uid) ∈ s.returned →
    ∀ a, s.attempts[k]? = some a → account.email ≠ a.withEmail

/-- An account once created stays, so an attempt leaves nothing only if it got no account. -/
theorem Records.allOrNothing_iff {s : SignUpFlow} (h : s.Records) (k : Nat) :
    s.AllOrNothing k ↔ ∀ uid, (k, uid) ∉ s.returned := by
  constructor
  · intro hnothing uid hk
    obtain ⟨a, password, ha, haccount⟩ := h.returned k uid hk
    exact hnothing.retry _ haccount hk a ha rfl
  · intro hnone
    refine ⟨?_, fun account _ hk => absurd hk (hnone _), fun account _ hk => absurd hk (hnone _)⟩
    have haccounts : (s.accounts.all.filter fun account => (k, account.uid) ∉ s.returned)
        = s.accounts.all :=
      List.filter_eq_self.2 fun account _ => decide_eq_true (hnone account.uid)
    have hdocuments : (fun path : DocumentPath =>
        if path.collection = "User" ∧ (k, path.document) ∈ s.returned then none
        else s.firestore.document path) = s.firestore.document := by
      funext path
      exact if_neg fun hpath => hnone _ hpath.2
    rw [storesWithout, haccounts, hdocuments]

/-- Attempt `k` has reported a failure after it had got its account. -/
def Orphaned (s : SignUpFlow) (k : Nat) : Prop :=
  (∃ e, (k, .failure e) ∈ s.completed) ∧ ∃ uid, (k, uid) ∈ s.returned

theorem Extends.orphaned {s s' : SignUpFlow} (h : s.Extends s') {k : Nat} (hk : s.Orphaned k) :
    s'.Orphaned k := by
  obtain ⟨⟨e, he⟩, uid, huid⟩ := hk
  exact ⟨⟨e, h.completed.subset he⟩, uid, h.returned.subset huid⟩

/-- What one step does to the set of orphaned attempts: a refused `setData` adds its attempt, and
    nothing else does. -/
theorem orphaned_step {s s' : SignUpFlow} {action : Action} (h : s.Inv)
    (hstep : machine.step s action = some s') (k : Nat) :
    s'.Orphaned k ↔
      s.Orphaned k ∨ ∃ r e, action = .setDataResponse r (some e) ∧ r.completion.attempt = k := by
  constructor
  · rintro ⟨⟨e, he⟩, uid, huid⟩
    cases step_of_machine hstep with
    | tapNothing hguard => exact Or.inl ⟨⟨e, he⟩, uid, huid⟩
    | tapSignUp htap => exact Or.inl ⟨⟨e, he⟩, uid, huid⟩
    | createUserError hr =>
        rcases List.mem_append.1 he with hold | hlast
        · exact Or.inl ⟨⟨e, hold⟩, uid, huid⟩
        -- the attempt that fails here has no account yet
        · obtain ⟨rfl, -⟩ := Prod.mk.inj (List.mem_singleton.1 hlast)
          exact absurd huid (h.records.unreturned _ hr uid)
    | createUserSuccess hr hcreate =>
        rcases List.mem_append.1 huid with hold | hlast
        · exact Or.inl ⟨⟨e, he⟩, uid, hold⟩
        -- the attempt that gets its account here has not reported yet
        · obtain ⟨rfl, -⟩ := Prod.mk.inj (List.mem_singleton.1 hlast)
          exact absurd he (h.ledger.not_completed hr _)
    | @setDataError r e' hr =>
        rcases List.mem_append.1 he with hold | hlast
        · exact Or.inl ⟨⟨e, hold⟩, uid, huid⟩
        · obtain ⟨rfl, -⟩ := Prod.mk.inj (List.mem_singleton.1 hlast)
          exact Or.inr ⟨r, e', rfl, rfl⟩
    | setDataSuccess hr => exact Or.inl ⟨⟨e, by simpa using he⟩, uid, huid⟩
    | terminate => exact Or.inl ⟨⟨e, he⟩, uid, huid⟩
  · rintro (hold | ⟨r, e, rfl, rfl⟩)
    · exact (extends_step hstep).orphaned hold
    · cases step_of_machine hstep with
      | setDataError hr =>
          obtain ⟨_, uid, -, huid, -⟩ := h.records.setData r hr
          exact ⟨⟨e, List.mem_append_right _ (List.mem_singleton.2 rfl)⟩, uid, huid⟩

/-- **Exactly the refused `setData` requests leave an account behind.** -/
theorem orphaned_run {s s' : SignUpFlow} {actions : List Action} (h : s.Inv)
    (hclean : ∀ k, ¬ s.Orphaned k) (hrun : machine.run s actions = some s') (k : Nat) :
    s'.Orphaned k ↔ ∃ r e, .setDataResponse r (some e) ∈ actions ∧ r.completion.attempt = k := by
  refine Machine.run_induction (P := fun actions s' => s'.Orphaned k ↔
    ∃ r e, .setDataResponse r (some e) ∈ actions ∧ r.completion.attempt = k) ?_ ?_ hrun
  · simp [hclean]
  · intro actions u action s' hu hstep ih
    have hinv : u.Inv := inv_run h hu
    simp only [orphaned_step hinv hstep, ih, List.mem_append, List.mem_singleton, or_and_right,
      exists_or]
    refine or_congr_right ⟨?_, ?_⟩
    · rintro ⟨r, e, rfl, hk⟩
      exact ⟨r, e, rfl, hk⟩
    · rintro ⟨r, e, rfl, hk⟩
      exact ⟨r, e, rfl, hk⟩

/-- A reported failure has left nothing exactly when its attempt is not orphaned. -/
theorem Records.allOrNothing_iff_not_orphaned {s : SignUpFlow} (h : s.Records) {k : Nat}
    {e : NSError} (he : (k, .failure e) ∈ s.completed) : s.AllOrNothing k ↔ ¬ s.Orphaned k := by
  rw [h.allOrNothing_iff]
  constructor
  · rintro hnone ⟨-, uid, huid⟩
    exact hnone uid huid
  · intro hnot uid huid
    exact hnot ⟨⟨e, he⟩, uid, huid⟩

/-- The address of an orphaned attempt stays taken: no later `createUser` for it can succeed. -/
theorem orphaned_blocks_retry {s s' : SignUpFlow} {actions : List Action} (h : s.Inv)
    (hrun : machine.run s actions = some s') {k : Nat} (hk : s.Orphaned k) {a : Attempt}
    (ha : s.attempts[k]? = some a) {r : CreateUserRequest} (hr : r.withEmail = a.withEmail)
    (uid : Uid) : s'.createUserResponse r (.success uid) = none := by
  obtain ⟨-, uid', huid'⟩ := hk
  obtain ⟨a', password, ha', haccount⟩ := h.records.returned k uid' huid'
  obtain rfl : a' = a := Option.some.inj (ha'.symm.trans ha)
  have hinUse : s'.accounts.InUse r.withEmail := by
    rw [hr]
    exact List.mem_map_of_mem (f := Account.email) ((extends_run hrun).accounts _ haccount)
  unfold createUserResponse
  split
  · rw [Accounts.createUser_of_inUse hinUse]
    rfl
  · rfl

end Harusali.SignUpFlow
