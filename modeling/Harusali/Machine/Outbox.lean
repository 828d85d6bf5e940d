import Harusali.Machine.Run
import Mathlib.Data.List.Nodup
import Mathlib.Data.List.Range

set_option autoImplicit false

/-! # Outboxes

The abstract picture of work that is handed in under a key and has to be done in turn. An item is
named by its index in `items`. It waits behind the earlier items of its key, and leaves the outbox
with a result when it is the first of them. Whoever handed it in is told the result, unless the
outbox has been restarted in between.

The machine settles nothing but the first waiting item of a key, so a component that refines it
loses no item, settles none twice and lets none overtake another of its key (`Sound`,
`sound_run`). -/

structure Outbox (κ α ρ : Type*) where
  items : List (κ × α)
  /-- The items that wait, of all keys, oldest first. -/
  waiting : List Nat
  settled : List (Nat × ρ)
  /-- The number of items handed in before the last restart. -/
  epoch : Nat
  /-- The results that have been told. -/
  reported : List (Nat × ρ)

namespace Outbox

variable {κ α ρ : Type*}

def keyOf (s : Outbox κ α ρ) (n : Nat) : Option κ := (s.items[n]?).map Prod.fst

section Queues

variable [DecidableEq κ]

/-- The items of this key among `l`. -/
def ofKey (s : Outbox κ α ρ) (k : κ) (l : List Nat) : List Nat :=
  l.filter fun n => s.keyOf n = some k

def waitingFor (s : Outbox κ α ρ) (k : κ) : List Nat := s.ofKey k s.waiting

def settledFor (s : Outbox κ α ρ) (k : κ) : List Nat := s.ofKey k (s.settled.map Prod.fst)

def issuedFor (s : Outbox κ α ρ) (k : κ) : List Nat := s.ofKey k (List.range s.items.length)

end Queues

inductive Action (κ α ρ : Type*) where
  | put (k : κ) (a : α)
  /-- The first waiting item of the key leaves with this result. -/
  | settle (k : κ) (r : ρ)
  | restart

/-- The outbox with a new item. -/
def put (s : Outbox κ α ρ) (k : κ) (a : α) : Outbox κ α ρ :=
  { s with items := s.items ++ [(k, a)], waiting := s.waiting ++ [s.items.length] }

/-- The outbox without a waiting item. -/
def leave (s : Outbox κ α ρ) (n : Nat) (r : ρ) : Outbox κ α ρ :=
  { s with
    waiting := s.waiting.filter fun m => m ≠ n
    settled := s.settled ++ [(n, r)]
    reported := s.reported ++ if s.epoch ≤ n then [(n, r)] else [] }

def machine [DecidableEq κ] : Machine (Outbox κ α ρ) (Action κ α ρ) where
  step s
    | .put k a => some (s.put k a)
    | .settle k r => (s.waitingFor k).head?.map fun n => s.leave n r
    | .restart => some { s with epoch := s.items.length }

/-! ## Keys -/

theorem keyOf_eq_none {s : Outbox κ α ρ} {n : Nat} (h : s.items.length ≤ n) : s.keyOf n = none := by
  rw [keyOf, List.getElem?_eq_none h]
  rfl

theorem lt_of_keyOf {s : Outbox κ α ρ} {n : Nat} {k : κ} (h : s.keyOf n = some k) :
    n < s.items.length := by
  by_contra hle
  rw [keyOf_eq_none (by omega)] at h
  exact absurd h (by simp)

theorem exists_keyOf {s : Outbox κ α ρ} {n : Nat} (h : n < s.items.length) :
    ∃ k, s.keyOf n = some k :=
  ⟨_, by rw [keyOf, List.getElem?_eq_getElem h]; rfl⟩

theorem keyOf_put_of_lt (s : Outbox κ α ρ) (k : κ) (a : α) {n : Nat} (h : n < s.items.length) :
    (s.put k a).keyOf n = s.keyOf n := by
  rw [keyOf, keyOf, put, List.getElem?_append_left h]

variable [DecidableEq κ]

theorem mem_ofKey {s : Outbox κ α ρ} {k : κ} {l : List Nat} {n : Nat} :
    n ∈ s.ofKey k l ↔ n ∈ l ∧ s.keyOf n = some k := by
  simp [ofKey]

theorem mem_issuedFor {s : Outbox κ α ρ} {k : κ} {n : Nat} :
    n ∈ s.issuedFor k ↔ s.keyOf n = some k := by
  rw [issuedFor, mem_ofKey, List.mem_range]
  exact ⟨fun h => h.2, fun h => ⟨lt_of_keyOf h, h⟩⟩

theorem issuedFor_pairwise (s : Outbox κ α ρ) (k : κ) : (s.issuedFor k).Pairwise (· < ·) :=
  List.pairwise_lt_range.filter _

theorem ofKey_append (s : Outbox κ α ρ) (k : κ) (l l' : List Nat) :
    s.ofKey k (l ++ l') = s.ofKey k l ++ s.ofKey k l' :=
  List.filter_append ..

/-- A new item belongs to its own key, and leaves the others as they are. -/
theorem ofKey_put (s : Outbox κ α ρ) (k k' : κ) (a : α) {l : List Nat}
    (h : ∀ n ∈ l, n < s.items.length) : (s.put k a).ofKey k' l = s.ofKey k' l := by
  refine List.filter_congr fun n hn => ?_
  rw [keyOf_put_of_lt s k a (h n hn)]

/-! ## What every run guarantees -/

structure Sound (s : Outbox κ α ρ) : Prop where
  sorted : s.waiting.Pairwise (· < ·)
  waiting : ∀ n ∈ s.waiting, n < s.items.length
  settled : ∀ p ∈ s.settled, p.1 < s.items.length
  /-- What has been settled of a key is what was handed in first. -/
  inTurn : ∀ k, s.settledFor k ++ s.waitingFor k = s.issuedFor k
  reported : s.reported.Sublist s.settled
  told : ∀ p ∈ s.settled, s.epoch ≤ p.1 → p ∈ s.reported

theorem sound_of_items_eq_nil {s : Outbox κ α ρ} (hitems : s.items = []) (hwaiting : s.waiting = [])
    (hsettled : s.settled = []) (hreported : s.reported = []) : s.Sound := by
  constructor <;> simp [hitems, hwaiting, hsettled, hreported, settledFor, waitingFor, issuedFor, ofKey]

theorem Sound.put {s : Outbox κ α ρ} (h : s.Sound) (k : κ) (a : α) : (s.put k a).Sound := by
  have hlength : (s.put k a).items.length = s.items.length + 1 := by simp [Outbox.put]
  refine ⟨?_, ?_, ?_, ?_, h.reported, h.told⟩
  · refine List.pairwise_append.2 ⟨h.sorted, List.pairwise_singleton _ _, ?_⟩
    intro n hn m hm
    rw [List.mem_singleton.1 hm]
    exact h.waiting n hn
  · intro n hn
    rcases List.mem_append.1 hn with hn | hn
    · have := h.waiting n hn
      omega
    · rw [List.mem_singleton.1 hn]
      omega
  · intro p hp
    have := h.settled p hp
    omega
  · intro k'
    have hsettled : (s.put k a).settledFor k' = s.settledFor k' :=
      ofKey_put s k k' a fun n hn => by
        obtain ⟨p, hp, rfl⟩ := List.mem_map.1 hn
        exact h.settled p hp
    have hwaiting : (s.put k a).ofKey k' s.waiting = s.waitingFor k' := ofKey_put s k k' a h.waiting
    have hrange : (s.put k a).ofKey k' (List.range s.items.length) = s.issuedFor k' :=
      ofKey_put s k k' a fun n hn => List.mem_range.1 hn
    rw [issuedFor, hlength, List.range_succ, ofKey_append, hrange, hsettled, ← h.inTurn k',
      List.append_assoc, ← hwaiting, ← ofKey_append]
    rfl

/-- An item that waits has not been settled. -/
theorem Sound.not_settled {s : Outbox κ α ρ} (h : s.Sound) {n : Nat} (hn : n ∈ s.waiting) :
    n ∉ s.settled.map Prod.fst := by
  intro hsettled
  obtain ⟨k, hk⟩ := exists_keyOf (h.waiting n hn)
  have hsorted := s.issuedFor_pairwise k
  rw [← h.inTurn k, List.pairwise_append] at hsorted
  have hlt := hsorted.2.2 n (mem_ofKey.2 ⟨hsettled, hk⟩) n (mem_ofKey.2 ⟨hn, hk⟩)
  exact Nat.lt_irrefl n hlt

/-- The first waiting item of a key leaves. -/
theorem Sound.leave {s : Outbox κ α ρ} (h : s.Sound) {k : κ} {n : Nat}
    (hhead : (s.waitingFor k).head? = some n) (r : ρ) : (s.leave n r).Sound := by
  obtain ⟨rest, hqueue⟩ : ∃ rest, s.waitingFor k = n :: rest := by
    cases hqueue : s.waitingFor k with
    | nil => simp [hqueue] at hhead
    | cons m rest =>
        rw [hqueue] at hhead
        exact ⟨rest, by rw [Option.some.inj hhead]⟩
  obtain ⟨hmem, hkey⟩ : n ∈ s.waiting ∧ s.keyOf n = some k :=
    mem_ofKey.1 (show n ∈ s.waitingFor k by rw [hqueue]; exact List.mem_cons_self ..)
  refine ⟨h.sorted.filter _, fun m hm => h.waiting m (List.mem_of_mem_filter hm), ?_, ?_, ?_, ?_⟩
  · intro p hp
    rcases List.mem_append.1 hp with hp | hp
    · exact h.settled p hp
    · rw [List.mem_singleton.1 hp]
      exact h.waiting n hmem
  · intro k'
    have hsettled : (s.leave n r).settledFor k'
        = s.settledFor k' ++ if k = k' then [n] else [] := by
      show s.ofKey k' ((s.settled ++ [(n, r)]).map Prod.fst) = _
      rw [List.map_append, ofKey_append]
      by_cases heq : k = k' <;> simp [settledFor, ofKey, hkey, heq]
    have hwaiting : (s.leave n r).waitingFor k' = (s.waitingFor k').filter fun m => m ≠ n := by
      show (s.waiting.filter _).filter _ = _
      rw [waitingFor, ofKey, List.filter_filter, List.filter_filter]
      exact List.filter_congr fun m _ => Bool.and_comm _ _
    show _ = s.issuedFor k'
    rw [hsettled, hwaiting, ← h.inTurn k']
    by_cases heq : k = k'
    · subst heq
      -- it was the first of its key
      have hsorted := h.sorted.filter fun m => s.keyOf m = some k
      rw [show s.waiting.filter _ = n :: rest from hqueue, List.pairwise_cons] at hsorted
      rw [hqueue, if_pos rfl, List.filter_cons_of_neg (by simp), List.append_assoc,
        List.filter_eq_self.2]
      · rfl
      · intro m hm
        have := hsorted.1 m hm
        simp only [decide_eq_true_eq]
        omega
    · rw [if_neg heq, List.append_nil, List.filter_eq_self.2]
      intro m hm
      simp only [decide_eq_true_eq]
      rintro rfl
      rw [(mem_ofKey.1 hm).2] at hkey
      exact heq (Option.some.inj hkey).symm
  · show (s.reported ++ _).Sublist (s.settled ++ _)
    by_cases hepoch : s.epoch ≤ n
    · rw [if_pos hepoch]
      exact h.reported.append (List.Sublist.refl _)
    · rw [if_neg hepoch]
      exact h.reported.append (List.nil_sublist _)
  · intro p hp hlate
    rcases List.mem_append.1 hp with hp | hp
    · exact List.mem_append_left _ (h.told p hp hlate)
    · rw [List.mem_singleton.1 hp] at hlate ⊢
      show (n, r) ∈ s.reported ++ _
      rw [if_pos (show s.epoch ≤ n from hlate)]
      exact List.mem_append_right _ (List.mem_singleton.2 rfl)

theorem Sound.restart {s : Outbox κ α ρ} (h : s.Sound) :
    Sound { s with epoch := s.items.length } := by
  refine { h with told := ?_ }
  intro p hp hlate
  exact absurd (h.settled p hp) (Nat.not_lt.2 hlate)

theorem sound_step {s s' : Outbox κ α ρ} {a : Action κ α ρ} (hstep : machine.step s a = some s')
    (h : s.Sound) : s'.Sound := by
  cases a with
  | put k a =>
      rw [← Option.some.inj hstep]
      exact h.put k a
  | settle k r =>
      obtain ⟨n, hhead, rfl⟩ := Option.map_eq_some_iff.1 hstep
      exact h.leave hhead r
  | restart =>
      rw [← Option.some.inj hstep]
      exact h.restart

theorem sound_run {s t : Outbox κ α ρ} {as : List (Action κ α ρ)}
    (hrun : machine.run s as = some t) (h : s.Sound) : t.Sound :=
  Machine.run_preserves (P := Sound) (fun _ _ _ hstep hs => sound_step hstep hs) hrun h

/-! ## What that means for an item -/

/-- **No item is lost.** -/
theorem Sound.waits_or_settled {s : Outbox κ α ρ} (h : s.Sound) {n : Nat} (hn : n < s.items.length) :
    n ∈ s.waiting ∨ n ∈ s.settled.map Prod.fst := by
  obtain ⟨k, hk⟩ := exists_keyOf hn
  have hmem : n ∈ s.settledFor k ++ s.waitingFor k := by
    rw [h.inTurn k]
    exact mem_issuedFor.2 hk
  rcases List.mem_append.1 hmem with hmem | hmem
  · exact Or.inr (mem_ofKey.1 hmem).1
  · exact Or.inl (mem_ofKey.1 hmem).1

/-- What waits before an item that waits is what was handed in before it and has not been
    settled. -/
theorem Sound.mem_front {s : Outbox κ α ρ} (h : s.Sound) {k : κ} {front back : List Nat} {m n : Nat}
    (hqueue : s.waitingFor k = front ++ m :: back) (hlt : n < m) (hkey : s.keyOf n = some k)
    (hn : n ∉ s.settled.map Prod.fst) : n ∈ front := by
  have hwaits : n ∈ s.waiting := (h.waits_or_settled (lt_of_keyOf hkey)).resolve_right hn
  have hmem : n ∈ s.waitingFor k := mem_ofKey.2 ⟨hwaits, hkey⟩
  have hsorted := h.sorted.filter fun n => s.keyOf n = some k
  rw [show s.waiting.filter _ = front ++ m :: back from hqueue, List.pairwise_append,
    List.pairwise_cons] at hsorted
  rw [hqueue, List.mem_append, List.mem_cons] at hmem
  rcases hmem with hmem | rfl | hmem
  · exact hmem
  · exact absurd hlt (Nat.lt_irrefl n)
  · have := hsorted.2.1.1 n hmem
    omega

end Outbox
