import Lqxp.Services.Phantom.Delivery

/-!
This module contains the bounds of a dead-drop store: on the envelopes of a slot, on all envelopes, and on
the bytes that they take.
-/

namespace Lqxp

/--
A weight of queues that no removal of envelopes raises.
-/
structure QueueWeight where
  weigh : List StoredEnvelope → Nat
  nil : weigh [] = 0
  mono : ∀ {q q' : List StoredEnvelope}, q.Sublist q' → weigh q ≤ weigh q'

def QueueWeight.length : QueueWeight where
  weigh := List.length
  nil := rfl
  mono h := h.length_le

def QueueWeight.bytes : QueueWeight where
  weigh := DeadDropStore.queueBytes
  nil := rfl
  mono h := (h.map _).sum_le_sum (by simp)

namespace DeadDropStore

def weight (store : DeadDropStore) (w : QueueWeight) : Nat := AssocMap.total w.weigh store.slots

variable {store : DeadDropStore} (w : QueueWeight)

theorem weight_sweepExpired_le (now : Nat) : (store.sweepExpired now).2.weight w ≤ store.weight w := by
  apply Nat.le_trans (AssocMap.total_retain_le w.weigh _ _)
  apply AssocMap.total_mapValues_le
  intro _ q
  exact w.mono (popExpired_sublist now q)

theorem weight_popFront_le {order : IterOrder} {slot : String} (h : store.oldestSlot order = some slot)
    : (store.popFront slot).weight w ≤ store.weight w := by
  obtain ⟨entry, rest, hlookup⟩ := head?_isSome_of_oldestSlot h
  have htotal := total_popFront w.weigh w.nil hlookup
  have hrest := w.mono (List.sublist_cons_self entry rest)
  simp only [weight]
  omega

theorem weight_evictOldest_le (order : IterOrder)
    : (store.evictOldest order).weight w ≤ store.weight w := by
  induction store using evictOldest.induct order with
  | case1 store hover hnone =>
    rw [evictOldest, if_pos hover]
    split
    . exact Nat.le_refl _
    next hsome => simp [hnone] at hsome
  | case2 store hover oldest hsome ih =>
    rw [evictOldest, if_pos hover]
    split
    next hnone => simp [hsome] at hnone
    next oldest' hsome' =>
      obtain rfl : oldest = oldest' := Option.some.inj (hsome.symm.trans hsome')
      exact Nat.le_trans ih (weight_popFront_le w hsome)
  | case3 store hfits =>
    rw [evictOldest, if_neg hfits]

theorem weight_insert (store : DeadDropStore) (w : QueueWeight) (slot : String) (q : List StoredEnvelope)
    : weight { slots := store.slots.insert slot q } w + w.weigh (store.queue slot)
        = store.weight w + w.weigh q := by
  have herase := AssocMap.total_eq_erase w.weigh slot store.slots
  have hqueue : ((store.slots.lookup slot).map w.weigh).getD 0 = w.weigh (store.queue slot) := by
    rw [queue]
    cases store.slots.lookup slot with
    | none => exact w.nil.symm
    | some q => rfl
  simp only [weight, AssocMap.total_insert]
  omega

theorem weight_claim_le (slot : String) (now : Nat) : (store.claim slot now).2.weight w ≤ store.weight w := by
  cases hlookup : store.slots.lookup slot with
  | none => simp [claim, hlookup]
  | some q =>
    have hqueue : store.queue slot = q := by simp [queue, hlookup]
    have hpopped := w.mono (popExpired_sublist now q)
    cases hcons : popExpired now q with
    | nil =>
      have hinsert := weight_insert store w slot []
      simp only [claim, hlookup, hcons]
      rw [w.nil] at hinsert
      omega
    | cons entry rest =>
      have hrest := w.mono (List.sublist_cons_self entry rest)
      simp only [claim, hlookup, hcons]
      split
      . have herase := AssocMap.total_eq_erase w.weigh slot store.slots
        simp only [weight]
        omega
      . have hinsert := weight_insert store w slot rest
        rw [hcons] at hpopped
        rw [hqueue] at hinsert
        omega

theorem oldestSlot_isSome (order : IterOrder) (h : 0 < store.liveCount)
    : store.oldestSlot order ≠ none := by
  obtain ⟨slot, q, hlookup, hpos⟩ := AssocMap.exists_of_total_pos h
  intro hnone
  rw [oldestSlot, Option.map_eq_none_iff] at hnone
  have hmem : (⟨slot, q⟩ : Sigma fun _ : String => List StoredEnvelope) ∈ order.entries store.slots :=
    (order.perm _).mem_iff.2 (AList.mem_lookup_iff.1 hlookup)
  have hfront := List.filterMap_eq_nil_iff.1 (minByKey_eq_none hnone) _ hmem
  rw [Option.map_eq_none_iff, List.head?_eq_none_iff] at hfront
  obtain rfl : q = [] := hfront
  contradiction

theorem liveCount_evictOldest_le (order : IterOrder)
    : (store.evictOldest order).liveCount ≤ maxTotalEnvelopes := by
  induction store using evictOldest.induct order with
  | case1 store hover hnone => exact absurd hnone (oldestSlot_isSome order (by omega))
  | case2 store hover oldest hsome ih =>
    rw [evictOldest, if_pos hover]
    split
    next hnone => simp [hsome] at hnone
    next oldest' hsome' =>
      obtain rfl : oldest = oldest' := Option.some.inj (hsome.symm.trans hsome')
      exact ih
  | case3 store hfits =>
    rw [evictOldest, if_neg hfits]
    omega

theorem liveBytes_deposit_le (store : DeadDropStore) (order : IterOrder) (envelope : PhantomEnvelope) (now : Nat)
    : (store.deposit order envelope now).liveBytes ≤ store.liveBytes + Text.len envelope.ct := by
  have hpushed := QueueWeight.bytes.mono
    (pushBounded_sublist (store.queue envelope.slotId) { envelope, expiresAt := expiryOf now })
  have hentry : QueueWeight.bytes.weigh
      (store.queue envelope.slotId ++ [{ envelope, expiresAt := expiryOf now }])
        = QueueWeight.bytes.weigh (store.queue envelope.slotId) + Text.len envelope.ct := by
    simp [QueueWeight.bytes, queueBytes]
  have hinsert := weight_insert store .bytes envelope.slotId
    (pushBounded (store.queue envelope.slotId) { envelope, expiresAt := expiryOf now })
  show (store.deposit order envelope now).weight .bytes ≤ store.weight .bytes + Text.len envelope.ct
  rw [deposit]
  split
  . apply Nat.le_trans (weight_evictOldest_le .bytes order)
    apply Nat.le_trans (weight_sweepExpired_le .bytes now)
    omega
  . omega

structure Bounded (store : DeadDropStore) : Prop where
  perSlot : ∀ slot, (store.queue slot).length ≤ maxEnvPerSlot
  count : store.liveCount ≤ maxTotalEnvelopes
  bytes : store.liveBytes ≤ maxTotalBytes

theorem Bounded.tryDeposit (h : store.Bounded) (order : IterOrder) (envelope : PhantomEnvelope)
    (now : Nat) : (store.tryDeposit order envelope now).2.Bounded := by
  rw [DeadDropStore.tryDeposit]
  split
  . exact h
  next hbytes =>
    constructor
    . intro slot
      apply Nat.le_trans (queue_deposit store order envelope now slot).length_le
      split
      . rw [pushBounded, List.length_drop]
        omega
      . exact h.perSlot slot
    . rw [deposit]
      split
      . exact liveCount_evictOldest_le order
      next hfits => exact Nat.le_of_not_lt hfits
    . have hadded := liveBytes_deposit_le store order envelope now
      have hlimit : maxTotalBytes < 2 ^ 64 - 1 := by decide
      simp only
      omega

theorem Bounded.claim (h : store.Bounded) (slot : String) (now : Nat)
    : (store.claim slot now).2.Bounded := by
  constructor
  . intro slot'
    apply Nat.le_trans _ (h.perSlot slot')
    rcases store.claim_cases slot now with ⟨-, hqueue⟩ | ⟨entry, -, -, hentry, hother⟩
    . exact (hqueue slot').length_le
    . by_cases hslot : slot' = slot
      . subst hslot
        exact ((List.sublist_cons_self _ _).trans hentry).length_le
      . rw [hother slot' hslot]
  . exact Nat.le_trans (weight_claim_le .length slot now) h.count
  . exact Nat.le_trans (weight_claim_le .bytes slot now) h.bytes

theorem Bounded.sweepExpired (h : store.Bounded) (now : Nat) : (store.sweepExpired now).2.Bounded where
  perSlot slot := Nat.le_trans (queue_sweepExpired store now slot).length_le (h.perSlot slot)
  count := Nat.le_trans (weight_sweepExpired_le .length now) h.count
  bytes := Nat.le_trans (weight_sweepExpired_le .bytes now) h.bytes

end DeadDropStore

/--
The operations that check the bytes of the store before they add to it.
-/
def StoreOp.checked : StoreOp → Bool
  | .deposit .. => false
  | _ => true

/--
After every sequence of checked operations on an empty store, at any times, the store is within its three
bounds.
-/
theorem bounded_of_checked (ops : List StoreOp) (hchecked : ∀ op ∈ ops, op.checked)
    : (Calls.play StoreOp.run ops {}).2.Bounded := by
  have hempty : DeadDropStore.Bounded {} := by
    constructor
    . intro slot
      exact Nat.zero_le _
    . exact Nat.zero_le _
    . exact Nat.zero_le _
  refine Calls.play_induction ops {} (fun _ => DeadDropStore.Bounded) hempty ?_
  intro _ store op hop h
  cases op with
  | tryDeposit order envelope now => exact h.tryDeposit order envelope now
  | deposit order envelope now => exact absurd (hchecked _ hop) Bool.false_ne_true
  | claim slot now => exact h.claim slot now
  | sweepExpired now => exact h.sweepExpired now

theorem bounded_of_checked_claimed
    : (Calls.play StoreOp.run
        [.tryDeposit .insertion
            { pv := 1, slotId := "a", recipientFp := "f", senderHint := "e", bucket := 4096, ct := "x" } 5,
          .sweepExpired 3, .claim "a" 4] {}).2.Bounded :=
  bounded_of_checked _ (by decide)

end Lqxp
