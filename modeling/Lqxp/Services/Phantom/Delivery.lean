import Lqxp.Prog.Calls
import Lqxp.Services.Phantom.Store

/-!
This module contains what a dead-drop store delivers: each envelope at most once, to its own slot, in the
order of the deposits, and not after its death.
-/

namespace Lqxp

inductive StoreOp where
  | tryDeposit (order : IterOrder) (envelope : PhantomEnvelope) (now : Nat)
  | deposit (order : IterOrder) (envelope : PhantomEnvelope) (now : Nat)
  | claim (slot : String) (now : Nat)
  | sweepExpired (now : Nat)

inductive StoreAnswer where
  | stored (ok : Bool)
  | claimed (envelope : Option PhantomEnvelope)
  | swept (removed : Nat)

def StoreOp.run : StoreOp → DeadDropStore → StoreAnswer × DeadDropStore
  | .tryDeposit order envelope now, store =>
    let (ok, store) := store.tryDeposit order envelope now
    (.stored ok, store)
  | .deposit order envelope now, store => (.stored true, store.deposit order envelope now)
  | .claim slot now, store =>
    let (envelope, store) := store.claim slot now
    (.claimed envelope, store)
  | .sweepExpired now, store =>
    let (removed, store) := store.sweepExpired now
    (.swept removed, store)

abbrev StoreLog := List (StoreOp × StoreAnswer)

/--
The log of a sequence of operations on a new store.
-/
def storeLog (ops : List StoreOp) : StoreLog := (Calls.play StoreOp.run ops {}).1

/--
The envelope that an operation has put into a slot, with its time of death.
-/
def depositedBy (slot : String) : StoreOp × StoreAnswer → Option StoredEnvelope
  | (.tryDeposit _ envelope now, .stored true) | (.deposit _ envelope now, .stored true) =>
    if envelope.slotId = slot then some { envelope, expiresAt := DeadDropStore.expiryOf now } else none
  | _ => none

/--
The envelope that an operation has taken out of a slot, with the time at which it did.
-/
def claimedBy (slot : String) : StoreOp × StoreAnswer → Option (PhantomEnvelope × Nat)
  | (.claim slot' now, .claimed (some envelope)) =>
    if slot' = slot then some (envelope, now) else none
  | _ => none

def StoreLog.deposited (log : StoreLog) (slot : String) : List StoredEnvelope :=
  log.filterMap (depositedBy slot)

def StoreLog.claimed (log : StoreLog) (slot : String) : List (PhantomEnvelope × Nat) :=
  log.filterMap (claimedBy slot)

/--
The claim has returned the stored envelope, and before its death.
-/
def Delivers (entry : StoredEnvelope) (claimed : PhantomEnvelope × Nat) : Prop :=
  entry.envelope = claimed.1 ∧ claimed.2 < entry.expiresAt

namespace DeadDropStore

theorem queue_insert (m : AssocMap String (List StoredEnvelope)) (slot slot' : String)
    (q : List StoredEnvelope)
    : queue { slots := m.insert slot q } slot'
        = if slot' = slot then q else queue { slots := m } slot' := by
  simp only [queue, AssocMap.lookup_insert]
  split <;> rfl

theorem popExpired_sublist (now : Nat) (q : List StoredEnvelope) : (popExpired now q).Sublist q :=
  List.dropWhile_sublist _

theorem queue_sweepExpired (store : DeadDropStore) (now : Nat) (slot : String)
    : ((store.sweepExpired now).2.queue slot).Sublist (store.queue slot) := by
  simp only [sweepExpired, queue, AssocMap.lookup_retain, AssocMap.lookup_mapValues]
  cases store.slots.lookup slot with
  | none => exact .refl _
  | some q =>
    rw [Option.map_some, Option.filter]
    split
    . exact popExpired_sublist now q
    . exact List.nil_sublist _

theorem queue_popFront (store : DeadDropStore) (slot slot' : String)
    : ((store.popFront slot).queue slot').Sublist (store.queue slot') := by
  simp only [popFront, queue]
  split
  . rw [AssocMap.lookup_erase]
    split
    . exact List.nil_sublist _
    next hne => rw [AssocMap.lookup_modify_ne hne]
  . rw [AssocMap.lookup_modify]
    split
    . cases store.slots.lookup slot' with
      | none => exact .refl _
      | some q => exact List.tail_sublist q
    . exact .refl _

theorem queue_evictOldest (store : DeadDropStore) (order : IterOrder) (slot : String)
    : ((store.evictOldest order).queue slot).Sublist (store.queue slot) := by
  induction store using evictOldest.induct order with
  | case1 store hover hnone =>
    rw [evictOldest, if_pos hover]
    split
    . exact .refl _
    next hsome => simp [hnone] at hsome
  | case2 store hover oldest hsome ih =>
    rw [evictOldest, if_pos hover]
    split
    next hnone => simp [hsome] at hnone
    next oldest' hsome' =>
      obtain rfl : oldest = oldest' := Option.some.inj (hsome.symm.trans hsome')
      exact ih.trans (queue_popFront store oldest slot)
  | case3 store hfits =>
    rw [evictOldest, if_neg hfits]

theorem pushBounded_sublist (q : List StoredEnvelope) (entry : StoredEnvelope)
    : (pushBounded q entry).Sublist (q ++ [entry]) :=
  List.drop_sublist _ _

theorem queue_deposit (store : DeadDropStore) (order : IterOrder) (envelope : PhantomEnvelope)
    (now : Nat) (slot : String)
    : ((store.deposit order envelope now).queue slot).Sublist
        (if slot = envelope.slotId then
          pushBounded (store.queue slot) { envelope, expiresAt := expiryOf now }
        else
          store.queue slot) := by
  rw [deposit]
  split
  . apply (queue_evictOldest _ order slot).trans
    apply (queue_sweepExpired _ now slot).trans
    rw [queue_insert]
    split
    next heq =>
      subst heq
      exact .refl _
    next => exact .refl _
  . rw [queue_insert]
    split
    next heq =>
      subst heq
      exact .refl _
    next => exact .refl _

theorem claim_cases (store : DeadDropStore) (slot : String) (now : Nat)
    : ((store.claim slot now).1 = none
          ∧ ∀ slot', ((store.claim slot now).2.queue slot').Sublist (store.queue slot'))
        ∨ ∃ entry, (store.claim slot now).1 = some entry.envelope ∧ now < entry.expiresAt
            ∧ (entry :: (store.claim slot now).2.queue slot).Sublist (store.queue slot)
            ∧ ∀ slot', slot' ≠ slot → (store.claim slot now).2.queue slot' = store.queue slot' := by
  cases hlookup : store.slots.lookup slot with
  | none => simp [claim, hlookup]
  | some q =>
    have hqueue : store.queue slot = q := by simp [queue, hlookup]
    cases hpopped : popExpired now q with
    | nil =>
      left
      simp only [claim, hlookup, hpopped, queue_insert, true_and]
      intro slot'
      split
      . exact List.nil_sublist _
      . exact .refl _
    | cons entry rest =>
      right
      have hlive : now < entry.expiresAt := by
        have hhead := List.head?_dropWhile_not (fun entry : StoredEnvelope => entry.expiresAt ≤ now) q
        rw [← popExpired, hpopped] at hhead
        simpa using hhead
      have hrest : ∀ slot', (store.claim slot now).2.queue slot'
          = if slot' = slot then rest else store.queue slot' := by
        intro slot'
        simp only [claim, hlookup, hpopped]
        split
        next hempty =>
          obtain rfl := List.isEmpty_iff.1 hempty
          simp only [queue, AssocMap.lookup_erase]
          split <;> rfl
        next => exact queue_insert store.slots slot slot' rest
      refine ⟨entry, by simp [claim, hlookup, hpopped], hlive, ?_, fun slot' hne => ?_⟩
      . rw [hrest, if_pos rfl, hqueue, ← hpopped]
        exact popExpired_sublist now q
      . rw [hrest, if_neg hne]

end DeadDropStore

/--
The envelopes claimed from a slot so far, and then its queue, are among the deposits for the slot in
their order.
-/
def InOrder (slot : String) (log : StoreLog) (store : DeadDropStore) : Prop :=
  ∃ delivered, List.Forall₂ Delivers delivered (log.claimed slot)
    ∧ (delivered ++ store.queue slot).Sublist (log.deposited slot)

theorem InOrder.of_queue_sublist {slot : String} {log : StoreLog} {store store' : DeadDropStore}
    {op : StoreOp} {answer : StoreAnswer} (h : InOrder slot log store)
    (hdeposited : depositedBy slot (op, answer) = none) (hclaimed : claimedBy slot (op, answer) = none)
    (hqueue : (store'.queue slot).Sublist (store.queue slot))
    : InOrder slot (log ++ [(op, answer)]) store' := by
  obtain ⟨delivered, hdelivers, hsublist⟩ := h
  refine ⟨delivered, ?_, ?_⟩
  . simpa [StoreLog.claimed, List.filterMap_append, hclaimed] using hdelivers
  . rw [StoreLog.deposited, List.filterMap_append, List.filterMap_cons, hdeposited,
      List.filterMap_nil, List.append_nil]
    exact ((List.Sublist.refl delivered).append hqueue).trans hsublist

theorem InOrder.deposit {slot : String} {log : StoreLog} {store : DeadDropStore} {op : StoreOp}
    (order : IterOrder) (envelope : PhantomEnvelope) (now : Nat) (h : InOrder slot log store)
    (hdeposited : depositedBy slot (op, .stored true) = if envelope.slotId = slot then
      some { envelope, expiresAt := DeadDropStore.expiryOf now } else none)
    (hclaimed : claimedBy slot (op, .stored true) = none)
    : InOrder slot (log ++ [(op, .stored true)]) (store.deposit order envelope now) := by
  have hqueue := store.queue_deposit order envelope now slot
  by_cases hslot : slot = envelope.slotId
  . rw [if_pos hslot] at hqueue
    rw [if_pos hslot.symm] at hdeposited
    obtain ⟨delivered, hdelivers, hsublist⟩ := h
    refine ⟨delivered, ?_, ?_⟩
    . simpa [StoreLog.claimed, List.filterMap_append, hclaimed] using hdelivers
    . rw [StoreLog.deposited, List.filterMap_append, List.filterMap_cons, hdeposited,
        List.filterMap_nil]
      apply ((List.Sublist.refl delivered).append
        (hqueue.trans (DeadDropStore.pushBounded_sublist _ _))).trans
      rw [← List.append_assoc]
      exact hsublist.append (.refl _)
  . rw [if_neg hslot] at hqueue
    rw [if_neg (Ne.symm hslot)] at hdeposited
    exact h.of_queue_sublist hdeposited hclaimed hqueue

theorem InOrder.step {slot : String} {log : StoreLog} {store : DeadDropStore} (op : StoreOp)
    (h : InOrder slot log store)
    : InOrder slot (log ++ [(op, (op.run store).1)]) (op.run store).2 := by
  cases op with
  | tryDeposit order envelope now =>
    simp only [StoreOp.run, DeadDropStore.tryDeposit]
    split
    . exact h.of_queue_sublist rfl rfl (.refl _)
    . exact h.deposit order envelope now rfl rfl
  | deposit order envelope now => exact h.deposit order envelope now rfl rfl
  | sweepExpired now => exact h.of_queue_sublist rfl rfl (store.queue_sweepExpired now slot)
  | claim slot' now =>
    simp only [StoreOp.run]
    rcases store.claim_cases slot' now with ⟨hnone, hqueue⟩ | ⟨entry, hsome, hlive, hentry, hother⟩
    . rw [hnone]
      exact h.of_queue_sublist rfl rfl (hqueue slot)
    . rw [hsome]
      by_cases hslot : slot = slot'
      . subst hslot
        obtain ⟨delivered, hdelivers, hsublist⟩ := h
        refine ⟨delivered ++ [entry], ?_, ?_⟩
        . rw [StoreLog.claimed, List.filterMap_append]
          apply List.rel_append hdelivers
          simp [claimedBy, Delivers, hlive]
        . rw [StoreLog.deposited, List.filterMap_append, List.append_assoc, List.singleton_append]
          simp only [depositedBy, List.filterMap_cons, List.filterMap_nil, List.append_nil]
          exact ((List.Sublist.refl delivered).append hentry).trans hsublist
      . exact h.of_queue_sublist rfl (if_neg (Ne.symm hslot)) (by rw [hother slot hslot])

/--
In every sequence of operations on an empty store, at any times: the envelopes that claims have taken out
of a slot are envelopes deposited for it, each of them once, in the order of the deposits and before
their death.
-/
theorem claimed_of_deposited (ops : List StoreOp) (slot : String)
    : ∃ delivered : List StoredEnvelope,
        delivered.Sublist ((storeLog ops).deposited slot)
          ∧ List.Forall₂ Delivers delivered ((storeLog ops).claimed slot) := by
  have hempty : InOrder slot [] {} := ⟨[], .nil, .refl _⟩
  obtain ⟨delivered, hdelivers, hsublist⟩ :=
    Calls.play_induction ops {} (InOrder slot) hempty fun log store op _ h => h.step op
  exact ⟨delivered, (List.sublist_append_left _ _).trans hsublist, hdelivers⟩

end Lqxp
