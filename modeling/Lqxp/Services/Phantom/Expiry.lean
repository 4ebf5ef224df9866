import Lqxp.Services.Phantom.Bounds

/-!
This module contains which envelopes a dead-drop store loses by their age: a sweep takes the dead ones, and a full
store makes room by the oldest of the rest. It also contains when the store keeps a slot without envelopes.
-/

namespace Lqxp

namespace DeadDropStore

/--
The store with an envelope at the end of its queue, before it makes room for it.
-/
def pushed (store : DeadDropStore) (envelope : PhantomEnvelope) (now : Nat) : DeadDropStore :=
  let entry : StoredEnvelope := { envelope, expiresAt := expiryOf now }
  { slots := store.slots.insert envelope.slotId (pushBounded (store.queue envelope.slotId) entry) }

theorem deposit_eq (store : DeadDropStore) (order : IterOrder) (envelope : PhantomEnvelope) (now : Nat)
    : store.deposit order envelope now
        = if maxTotalEnvelopes < (store.pushed envelope now).liveCount then
            ((store.pushed envelope now).sweepExpired now).2.evictOldest order
          else
            store.pushed envelope now := rfl

/--
A sweep removes exactly the envelopes that are dead, and counts them.
-/
structure SweepsExpired (store : DeadDropStore) (now : Nat) : Prop where
  queues : ∀ slot, (store.sweepExpired now).2.queue slot = (store.queue slot).filter (now < ·.expiresAt)
  removed : (store.sweepExpired now).1 = AssocMap.total (List.countP (·.expiresAt ≤ now)) store.slots

/--
A number of envelopes is removed one after the other, each of them of the least expiry at its time.
-/
inductive PopsOldest : Nat → DeadDropStore → DeadDropStore → Prop where
  | done (store : DeadDropStore) : PopsOldest 0 store store
  | pop {n : Nat} {store store' store'' : DeadDropStore} {slot : String} {entry : StoredEnvelope}
    {rest : List StoredEnvelope} (hentry : store.queue slot = entry :: rest)
    (holdest : ∀ slot', ∀ other ∈ store.queue slot', entry.expiresAt ≤ other.expiresAt)
    (hslot : store'.queue slot = rest) (hothers : ∀ slot', slot' ≠ slot → store'.queue slot' = store.queue slot')
    (hrest : PopsOldest n store' store'') : PopsOldest (n + 1) store store''

/--
A deposit that finds no room removes the dead envelopes, and then as many of the oldest as are too many.
-/
structure EvictsOldest (store : DeadDropStore) (order : IterOrder) (envelope : PhantomEnvelope) (now : Nat)
    : Prop where
  fits : (store.pushed envelope now).liveCount ≤ maxTotalEnvelopes →
    store.deposit order envelope now = store.pushed envelope now
  evicts : maxTotalEnvelopes < (store.pushed envelope now).liveCount → ∃ swept : DeadDropStore,
    (∀ slot, swept.queue slot = ((store.pushed envelope now).queue slot).filter (now < ·.expiresAt))
      ∧ PopsOldest (swept.liveCount - maxTotalEnvelopes) swept (store.deposit order envelope now)
      ∧ (store.deposit order envelope now).liveCount ≤ maxTotalEnvelopes

/--
The envelopes of every slot stand in the order of their death, and none lives longer than one stored at time `t`.
-/
structure Aging (t : Nat) (store : DeadDropStore) : Prop where
  sorted : ∀ slot, (store.queue slot).Pairwise fun a b => a.expiresAt ≤ b.expiresAt
  bounded : ∀ slot, ∀ entry ∈ store.queue slot, entry.expiresAt ≤ t + envelopeTtlMs

section Queues

variable {store : DeadDropStore}

theorem popExpired_eq_filter (now : Nat) {q : List StoredEnvelope}
    (h : q.Pairwise fun a b => a.expiresAt ≤ b.expiresAt) : popExpired now q = q.filter (now < ·.expiresAt) := by
  induction q with
  | nil => rfl
  | cons entry q ih =>
    obtain ⟨hentry, hq⟩ := List.pairwise_cons.1 h
    by_cases hdead : entry.expiresAt ≤ now
    . rw [popExpired, List.dropWhile_cons_of_pos (by simpa using hdead), List.filter_cons_of_neg (by simpa using hdead)]
      exact ih hq
    . -- Behind an envelope that lives all others live too.
      rw [popExpired, List.dropWhile_cons_of_neg (by simpa using hdead), List.filter_eq_self.2]
      refine List.forall_mem_cons.2 ⟨by simpa using hdead, fun other hother => ?_⟩
      have := hentry other hother
      simp only [decide_eq_true_eq]
      omega

theorem queue_popFront_eq {slot : String} {entry : StoredEnvelope} {rest : List StoredEnvelope}
    (h : store.slots.lookup slot = some (entry :: rest)) (slot' : String)
    : (store.popFront slot).queue slot' = if slot' = slot then rest else store.queue slot' := by
  simp only [popFront, queue]
  split
  next hempty =>
    rw [AssocMap.lookup_modify_self, h] at hempty
    rw [AssocMap.lookup_erase]
    split
    . obtain rfl : rest = [] := by simpa using hempty
      rfl
    next hne => rw [AssocMap.lookup_modify_ne hne]
  . rw [AssocMap.lookup_modify]
    split
    next heq =>
      rw [heq, h]
      rfl
    next => rfl

theorem queue_of_lookup {slot : String} {q : List StoredEnvelope} (h : store.slots.lookup slot = some q)
    : store.queue slot = q := by
  rw [queue, h]
  rfl

theorem queue_sweepExpired_eq (now : Nat) (slot : String)
    : (store.sweepExpired now).2.queue slot = popExpired now (store.queue slot) := by
  simp only [sweepExpired, queue, AssocMap.lookup_retain, AssocMap.lookup_mapValues]
  cases store.slots.lookup slot with
  | none => rfl
  | some q =>
    rw [Option.map_some, Option.filter]
    split
    . rfl
    next hempty =>
      obtain hnil : popExpired now q = [] := by simpa using hempty
      rw [Option.getD_some, hnil]
      rfl

theorem removed_sweepExpired (h : ∀ slot, (store.queue slot).Pairwise fun a b => a.expiresAt ≤ b.expiresAt) (now : Nat)
    : (store.sweepExpired now).1 = AssocMap.total (List.countP (·.expiresAt ≤ now)) store.slots := by
  have hcount : ∀ q ∈ AssocMap.values store.slots,
      q.length = (popExpired now q).length + q.countP (·.expiresAt ≤ now) := by
    intro q hq
    obtain ⟨slot, hlookup⟩ := AssocMap.exists_lookup_of_mem_values hq
    have hsorted := h slot
    rw [queue_of_lookup hlookup] at hsorted
    rw [popExpired_eq_filter now hsorted, ← List.countP_eq_length_filter,
      List.length_eq_countP_add_countP (fun entry => decide (now < entry.expiresAt))]
    congr 2
    funext entry
    simp
  have htotal : store.liveCount = AssocMap.total (fun q => (popExpired now q).length) store.slots
      + AssocMap.total (List.countP (·.expiresAt ≤ now)) store.slots := by
    simp only [liveCount, AssocMap.total]
    rw [← List.sum_map_add]
    exact congrArg List.sum (List.map_congr_left hcount)
  have hpopped : AssocMap.total List.length (store.slots.mapValues fun _ q => popExpired now q)
      = AssocMap.total (fun q => (popExpired now q).length) store.slots := by
    simp only [AssocMap.total, AssocMap.values, AssocMap.mapValues, List.map_map]
    rfl
  rw [sweepExpired, hpopped]
  dsimp only
  omega

theorem oldest_of_oldestSlot {order : IterOrder} {slot : String} {entry : StoredEnvelope} {rest : List StoredEnvelope}
    (hsorted : ∀ slot, (store.queue slot).Pairwise fun a b => a.expiresAt ≤ b.expiresAt)
    (h : store.oldestSlot order = some slot) (hentry : store.queue slot = entry :: rest) (slot' : String)
    : ∀ other ∈ store.queue slot', entry.expiresAt ≤ other.expiresAt := by
  intro other hother
  rw [oldestSlot, Option.map_eq_some_iff] at h
  obtain ⟨⟨_, expiresAt⟩, hmin, rfl⟩ := h
  obtain ⟨⟨slot, q⟩, hmem, hfront⟩ := List.mem_filterMap.1 (mem_of_minByKey hmin)
  obtain ⟨front, hhead, hpair⟩ := Option.map_eq_some_iff.1 hfront
  cases hpair
  have hq : store.queue slot = q :=
    queue_of_lookup (AList.mem_lookup_iff.2 ((order.perm _).mem_iff.1 hmem))
  obtain rfl : front = entry := by
    rw [← hq, hentry] at hhead
    exact (Option.some.inj hhead).symm
  cases hlookup : store.slots.lookup slot' with
  | none =>
    rw [queue, hlookup] at hother
    contradiction
  | some q' =>
    rw [queue_of_lookup hlookup] at hother
    obtain ⟨front', rest', rfl⟩ := List.exists_cons_of_ne_nil (List.ne_nil_of_mem hother)
    have hmem' : (slot', front'.expiresAt) ∈ (order.entries store.slots).filterMap fun x =>
        x.2.head?.map fun entry => (x.1, entry.expiresAt) :=
      List.mem_filterMap.2 ⟨⟨slot', front' :: rest'⟩, (order.perm _).mem_iff.2 (AList.mem_lookup_iff.1 hlookup), rfl⟩
    have hle : front.expiresAt ≤ front'.expiresAt := minByKey_le hmin _ hmem'
    rcases List.mem_cons.1 hother with rfl | hrest
    . exact hle
    . have hsorted' := hsorted slot'
      rw [queue_of_lookup hlookup] at hsorted'
      exact Nat.le_trans hle ((List.pairwise_cons.1 hsorted').1 other hrest)

theorem liveCount_popFront {slot : String} {entry : StoredEnvelope} {rest : List StoredEnvelope}
    (h : store.slots.lookup slot = some (entry :: rest)) : (store.popFront slot).liveCount + 1 = store.liveCount := by
  have htotal := total_popFront List.length rfl h
  simp only [List.length_cons] at htotal
  simp only [liveCount]
  omega

theorem popsOldest_evictOldest (order : IterOrder)
    (hsorted : ∀ slot, (store.queue slot).Pairwise fun a b => a.expiresAt ≤ b.expiresAt)
    : PopsOldest (store.liveCount - maxTotalEnvelopes) store (store.evictOldest order) := by
  induction store using evictOldest.induct order with
  | case1 store hover hnone => exact absurd hnone (oldestSlot_isSome order (by omega))
  | case2 store hover slot hsome ih =>
    rw [evictOldest, if_pos hover]
    split
    next hnone => simp [hsome] at hnone
    next slot' hsome' =>
      obtain rfl : slot = slot' := Option.some.inj (hsome.symm.trans hsome')
      obtain ⟨entry, rest, hlookup⟩ := head?_isSome_of_oldestSlot hsome
      have hqueue := queue_of_lookup hlookup
      have hpop := queue_popFront_eq hlookup
      have hcount : store.liveCount - maxTotalEnvelopes
          = (store.popFront slot).liveCount - maxTotalEnvelopes + 1 := by
        have := liveCount_popFront hlookup
        omega
      rw [hcount]
      refine .pop hqueue (oldest_of_oldestSlot hsorted hsome hqueue) (by rw [hpop, if_pos rfl])
        (fun other hne => by rw [hpop, if_neg hne]) (ih fun other => ?_)
      exact (hsorted other).sublist (queue_popFront store slot other)
  | case3 store hfits =>
    rw [evictOldest, if_neg hfits, Nat.sub_eq_zero_of_le (Nat.le_of_not_lt hfits)]
    exact .done store

end Queues

namespace Aging

variable {t : Nat} {store : DeadDropStore}

theorem mono {t' : Nat} (h : Aging t store) (hle : t ≤ t') : Aging t' store where
  sorted := h.sorted
  bounded slot entry hentry := Nat.le_trans (h.bounded slot entry hentry) (by omega)

theorem of_sublist {store' : DeadDropStore} (h : Aging t store)
    (hsublist : ∀ slot, (store'.queue slot).Sublist (store.queue slot)) : Aging t store' where
  sorted slot := (h.sorted slot).sublist (hsublist slot)
  bounded slot entry hentry := h.bounded slot entry ((hsublist slot).subset hentry)

theorem sweepsExpired (h : Aging t store) (now : Nat) : store.SweepsExpired now where
  queues slot := by rw [queue_sweepExpired_eq, popExpired_eq_filter now (h.sorted slot)]
  removed := removed_sweepExpired h.sorted now

theorem pushed (h : Aging t store) {envelope : PhantomEnvelope} {now : Nat} (ht : t ≤ now)
    (hfits : now + envelopeTtlMs < 2 ^ 64) : Aging now (store.pushed envelope now) := by
  have hexpiry : expiryOf now = now + envelopeTtlMs := Nat.mod_eq_of_lt hfits
  have hlater {slot : String} {entry : StoredEnvelope} (hentry : entry ∈ store.queue slot)
      : entry.expiresAt ≤ now + envelopeTtlMs := (h.mono ht).bounded slot entry hentry
  have hqueue (slot : String) : ((store.pushed envelope now).queue slot).Sublist
      (store.queue slot ++ if slot = envelope.slotId then [{ envelope, expiresAt := expiryOf now }] else []) := by
    rw [DeadDropStore.pushed, queue_insert]
    split
    next heq =>
      rw [heq]
      exact pushBounded_sublist _ _
    next => rw [List.append_nil]
  constructor
  . intro slot
    refine List.Pairwise.sublist (hqueue slot) (List.pairwise_append.2 ⟨h.sorted slot, ?_, fun entry hentry last hlast => ?_⟩)
    . split
      . exact List.pairwise_singleton _ _
      . exact List.Pairwise.nil
    . split at hlast
      . obtain rfl := List.mem_singleton.1 hlast
        exact Nat.le_trans (hlater hentry) (Nat.le_of_eq hexpiry.symm)
      . exact absurd hlast List.not_mem_nil
  . intro slot entry hentry
    rcases List.mem_append.1 ((hqueue slot).subset hentry) with hold | hnew
    . exact hlater hold
    . split at hnew
      . obtain rfl := List.mem_singleton.1 hnew
        exact Nat.le_of_eq hexpiry
      . exact absurd hnew List.not_mem_nil

theorem deposit (h : Aging t store) (order : IterOrder) {envelope : PhantomEnvelope} {now : Nat} (ht : t ≤ now)
    (hfits : now + envelopeTtlMs < 2 ^ 64) : Aging now (store.deposit order envelope now) := by
  have hpushed : Aging now (store.pushed envelope now) := h.pushed ht hfits
  rw [deposit_eq]
  split
  . exact hpushed.of_sublist fun slot => (queue_evictOldest _ order slot).trans (queue_sweepExpired _ now slot)
  . exact hpushed

theorem evictsOldest (h : Aging t store) (order : IterOrder) {envelope : PhantomEnvelope} {now : Nat} (ht : t ≤ now)
    (hfits : now + envelopeTtlMs < 2 ^ 64) : store.EvictsOldest order envelope now := by
  have hpushed : Aging now (store.pushed envelope now) := h.pushed ht hfits
  constructor
  . intro hroom
    rw [deposit_eq, if_neg (Nat.not_lt_of_le hroom)]
  . intro hover
    rw [deposit_eq, if_pos hover]
    have hswept := hpushed.of_sublist (queue_sweepExpired _ now)
    exact ⟨_, (hpushed.sweepsExpired now).queues, popsOldest_evictOldest order hswept.sorted,
      liveCount_evictOldest_le order⟩

end Aging

end DeadDropStore

def StoreOp.time : StoreOp → Nat
  | .tryDeposit _ _ now | .deposit _ _ now | .claim _ now | .sweepExpired now => now

/--
The time of death of a deposited envelope does not overflow.
-/
def StoreOp.Fits : StoreOp → Prop
  | .tryDeposit _ _ now | .deposit _ _ now => now + envelopeTtlMs < 2 ^ 64
  | _ => True

/--
An operation on a store removes the envelopes that it has to remove for their age.
-/
def StoreOp.RemovesByAge (store : DeadDropStore) : StoreOp → Prop
  | .sweepExpired now => store.SweepsExpired now
  | .deposit order envelope now => store.EvictsOldest order envelope now
  | .tryDeposit order envelope now =>
    (store.tryDeposit order envelope now).1 = true →
      (store.tryDeposit order envelope now).2 = store.deposit order envelope now
        ∧ store.EvictsOldest order envelope now
  | .claim .. => True

theorem StoreOp.aging_run {op : StoreOp} {t : Nat} {store : DeadDropStore} (h : store.Aging t)
    (ht : t ≤ op.time) (hfits : op.Fits) : (op.run store).2.Aging op.time := by
  cases op with
  | tryDeposit order envelope now =>
    simp only [StoreOp.run, DeadDropStore.tryDeposit]
    split
    . exact h.mono ht
    . exact h.deposit order ht hfits
  | deposit order envelope now => exact h.deposit order ht hfits
  | sweepExpired now => exact (h.mono ht).of_sublist (store.queue_sweepExpired now)
  | claim slot now =>
    refine (h.mono ht).of_sublist fun slot' => ?_
    simp only [StoreOp.run]
    rcases store.claim_cases slot now with ⟨-, hqueue⟩ | ⟨entry, -, -, hentry, hother⟩
    . exact hqueue slot'
    . by_cases hslot : slot' = slot
      . rw [hslot]
        exact (List.sublist_cons_self _ _).trans hentry
      . rw [hother slot' hslot]

theorem StoreOp.removesByAge_of_aging {op : StoreOp} {t : Nat} {store : DeadDropStore} (h : store.Aging t)
    (ht : t ≤ op.time) (hfits : op.Fits) : op.RemovesByAge store := by
  cases op with
  | tryDeposit order envelope now =>
    intro hstored
    refine ⟨?_, h.evictsOldest order ht hfits⟩
    rw [DeadDropStore.tryDeposit] at hstored ⊢
    split at hstored
    . contradiction
    next hbytes => rw [if_neg hbytes]
  | deposit order envelope now => exact h.evictsOldest order ht hfits
  | sweepExpired now => exact h.sweepsExpired now
  | claim slot now => trivial

theorem aging_play {ops : List StoreOp} (hclock : Calls.Clocked (fun op => [StoreOp.time op]) ops)
    (hfits : ∀ op ∈ ops, op.Fits) {t : Nat} (ht : ∀ op ∈ ops, op.time ≤ t)
    : (Calls.play StoreOp.run ops {}).2.Aging t := by
  induction ops using List.reverseRecOn generalizing t with
  | nil =>
    constructor
    . intro slot
      exact List.Pairwise.nil
    . intro slot entry hentry
      contradiction
  | append_singleton ops op ih =>
    rw [Calls.Clocked, List.flatMap_append, List.pairwise_append] at hclock
    have hbefore (other : StoreOp) (hother : other ∈ ops) : other.time ≤ op.time :=
      hclock.2.2 _ (List.mem_flatMap.2 ⟨other, hother, .head _⟩) _ (.head _)
    have haging := ih hclock.1 (fun other hother => hfits other (List.mem_append_left _ hother)) hbefore
    rw [Calls.play_concat]
    exact (StoreOp.aging_run haging (Nat.le_refl _) (hfits op (by simp))).mono (ht op (by simp))

/--
In a run under a clock that does not run backwards or overflow, sweeps remove exactly the dead envelopes, and
deposits that find no room only the dead and then the oldest ones.
-/
theorem removesByAge_of_fits (ops : List StoreOp) (op : StoreOp)
    (hclock : Calls.Clocked (fun op => [StoreOp.time op]) (ops ++ [op])) (hfits : ∀ other ∈ ops ++ [op], other.Fits)
    : op.RemovesByAge (Calls.play StoreOp.run ops {}).2 := by
  rw [Calls.Clocked, List.flatMap_append, List.pairwise_append] at hclock
  have hbefore (other : StoreOp) (hother : other ∈ ops) : other.time ≤ op.time :=
    hclock.2.2 _ (List.mem_flatMap.2 ⟨other, hother, .head _⟩) _ (.head _)
  have haging := aging_play hclock.1 (fun other hother => hfits other (List.mem_append_left _ hother)) hbefore
  exact StoreOp.removesByAge_of_aging haging (Nat.le_refl _) (hfits op (by simp))

def smallEnvelope : PhantomEnvelope :=
  { pv := 1, slotId := "a", recipientFp := "f", senderHint := "e", bucket := 4096, ct := "x" }

/--
A sweep takes the older of two envelopes.
-/
theorem removesByAge_of_fits_sweep
    : (StoreOp.sweepExpired 86400006).RemovesByAge
        (Calls.play StoreOp.run [.deposit .insertion smallEnvelope 5, .deposit .insertion smallEnvelope 7] {}).2 := by
  refine removesByAge_of_fits _ _ (by decide) ?_
  rw [List.cons_append, List.cons_append, List.nil_append]
  refine List.forall_mem_cons.2 ⟨?_, List.forall_mem_cons.2 ⟨?_, List.forall_mem_singleton.2 trivial⟩⟩
  . show 5 + envelopeTtlMs < 2 ^ 64
    decide
  . show 7 + envelopeTtlMs < 2 ^ 64
    decide

/--
The clock reads one day before its last reading, and a little earlier: the time of death of the second envelope
overflows, but the first one stands before it.
-/
theorem not_removesByAge_overflow
    : ¬ ∀ (ops : List StoreOp) (op : StoreOp), Calls.Clocked (fun op => [StoreOp.time op]) (ops ++ [op]) →
        op.RemovesByAge (Calls.play StoreOp.run ops {}).2 := by
  intro h
  have hsweep := h [.deposit .insertion smallEnvelope (2 ^ 64 - 1 - envelopeTtlMs),
    .deposit .insertion smallEnvelope (2 ^ 64 - envelopeTtlMs)] (.sweepExpired (2 ^ 64 - envelopeTtlMs)) (by decide)
  have hqueue := hsweep.queues "a"
  revert hqueue
  decide +kernel

end Lqxp

namespace Lqxp

namespace DeadDropStore

/--
No slot is mapped to an empty queue.
-/
def NoEmptySlots (store : DeadDropStore) : Prop := AssocMap.All (fun _ q => q ≠ []) store.slots

/--
A claim finds an envelope that is not dead in its slot, or no such slot.
-/
def Claimable (store : DeadDropStore) (slot : String) (now : Nat) : Prop :=
  store.slots.lookup slot = none ∨ ∃ entry ∈ store.queue slot, now < entry.expiresAt

variable {store : DeadDropStore}

theorem noEmptySlots_sweepExpired (store : DeadDropStore) (now : Nat) : (store.sweepExpired now).2.NoEmptySlots := by
  intro slot q hlookup
  simp only [sweepExpired, AssocMap.lookup_retain, Option.filter_eq_some_iff, Bool.not_eq_true',
    List.isEmpty_eq_false_iff] at hlookup
  exact hlookup.2

namespace NoEmptySlots

theorem popFront (h : store.NoEmptySlots) (slot : String) : (store.popFront slot).NoEmptySlots := by
  intro slot' q hlookup
  simp only [DeadDropStore.popFront] at hlookup
  split at hlookup
  next hempty =>
    rw [AssocMap.lookup_erase] at hlookup
    split at hlookup
    . contradiction
    next hne =>
      rw [AssocMap.lookup_modify_ne hne] at hlookup
      exact h slot' q hlookup
  next hnonempty =>
    by_cases hslot : slot' = slot
    . rintro rfl
      rw [hslot] at hlookup
      exact hnonempty (by rw [hlookup]; rfl)
    . rw [AssocMap.lookup_modify_ne hslot] at hlookup
      exact h slot' q hlookup

theorem evictOldest (h : store.NoEmptySlots) (order : IterOrder) : (store.evictOldest order).NoEmptySlots := by
  induction store using evictOldest.induct order with
  | case1 store hover hnone => exact absurd hnone (oldestSlot_isSome order (by omega))
  | case2 store hover slot hsome ih =>
    rw [DeadDropStore.evictOldest, if_pos hover]
    split
    next hnone => simp [hsome] at hnone
    next slot' hsome' =>
      obtain rfl : slot = slot' := Option.some.inj (hsome.symm.trans hsome')
      exact ih (h.popFront slot)
  | case3 store hfits => rwa [DeadDropStore.evictOldest, if_neg hfits]

theorem pushed (h : store.NoEmptySlots) (envelope : PhantomEnvelope) (now : Nat)
    : (store.pushed envelope now).NoEmptySlots := by
  refine AssocMap.All.insert h fun hempty => ?_
  have hlength := congrArg List.length hempty
  rw [pushBounded, List.length_drop, List.length_append, List.length_singleton, List.length_nil] at hlength
  have : 0 < maxEnvPerSlot := by decide
  omega

theorem deposit (h : store.NoEmptySlots) (order : IterOrder) (envelope : PhantomEnvelope) (now : Nat)
    : (store.deposit order envelope now).NoEmptySlots := by
  rw [deposit_eq]
  split
  . exact (noEmptySlots_sweepExpired _ now).evictOldest order
  . exact h.pushed envelope now

theorem claim_iff (h : store.NoEmptySlots) (slot : String) (now : Nat)
    : (store.claim slot now).2.NoEmptySlots ↔ store.Claimable slot now := by
  cases hlookup : store.slots.lookup slot with
  | none =>
    rw [claim, hlookup]
    exact iff_of_true h (.inl hlookup)
  | some q =>
    have hclaimable : store.Claimable slot now ↔ popExpired now q ≠ [] := by
      rw [Claimable, hlookup, queue_of_lookup hlookup, popExpired, ne_eq, List.dropWhile_eq_nil_iff]
      simp
    rw [hclaimable, claim, hlookup]
    dsimp only
    cases hpopped : popExpired now q with
    | nil =>
      refine iff_of_false (fun hempty => ?_) (by simp)
      exact hempty slot [] (by rw [AssocMap.lookup_insert, if_pos rfl]) rfl
    | cons entry rest =>
      refine iff_of_true ?_ (List.cons_ne_nil _ _)
      dsimp only
      split
      . exact AssocMap.All.erase h
      next hrest => exact AssocMap.All.insert h (by simpa using hrest)

end NoEmptySlots

end DeadDropStore

/--
A claim finds what it looks for; the other operations have nothing to find.
-/
def StoreOp.Finds (store : DeadDropStore) : StoreOp → Prop
  | .claim slot now => store.Claimable slot now
  | _ => True

theorem StoreOp.noEmptySlots_run_iff {store : DeadDropStore} (h : store.NoEmptySlots) (op : StoreOp)
    : (op.run store).2.NoEmptySlots ↔ op.Finds store := by
  cases op with
  | tryDeposit order envelope now =>
    simp only [StoreOp.run, DeadDropStore.tryDeposit]
    split
    . exact iff_of_true h trivial
    . exact iff_of_true (h.deposit order envelope now) trivial
  | deposit order envelope now => exact iff_of_true (h.deposit order envelope now) trivial
  | sweepExpired now => exact iff_of_true (store.noEmptySlots_sweepExpired now) trivial
  | claim slot now => exact h.claim_iff slot now

/--
The store after a sequence of operations on an empty one.
-/
def storeAfter (ops : List StoreOp) : DeadDropStore := (Calls.play StoreOp.run ops {}).2

theorem storeAfter_concat (ops : List StoreOp) (op : StoreOp)
    : storeAfter (ops ++ [op]) = (op.run (storeAfter ops)).2 := by
  rw [storeAfter, Calls.play_concat]
  rfl

/--
After every operation of a run no slot is mapped to an empty queue, if and only if each claim finds an envelope that
is not dead in its slot, or no such slot.
-/
theorem noEmptySlots_iff (ops : List StoreOp)
    : (∀ before after, ops = before ++ after → (storeAfter before).NoEmptySlots)
        ↔ ∀ before op after, ops = before ++ op :: after → op.Finds (storeAfter before) := by
  constructor
  . rintro h before op after rfl
    have hnext := h (before ++ [op]) after (by simp)
    rw [storeAfter_concat] at hnext
    exact (StoreOp.noEmptySlots_run_iff (h before (op :: after) rfl) op).1 hnext
  . intro h before
    induction before using List.reverseRecOn with
    | nil => exact fun _ _ => AssocMap.All.empty
    | append_singleton before op ih =>
      rintro after rfl
      rw [storeAfter_concat]
      refine (StoreOp.noEmptySlots_run_iff (ih (op :: after) (by simp)) op).2 ?_
      exact h before op after (by simp)

/--
A claim on the day after a deposit leaves the slot behind.
-/
theorem not_noEmptySlots_late
    : ¬ ∀ ops : List StoreOp, ∀ before after, ops = before ++ after → (storeAfter before).NoEmptySlots := by
  intro h
  have hempty := h _ [.deposit .insertion smallEnvelope 0, .claim "a" envelopeTtlMs] [] rfl
  exact hempty "a" [] (by decide +kernel) rfl

end Lqxp
