import Lqxp.Data.Fifo
import Lqxp.Data.Text

/-!
This module contains the dead-drop store: for each slot a bounded queue of envelopes, with a time at which
each of them dies.
-/

namespace Lqxp

structure PhantomEnvelope where
  pv : Nat
  slotId : String
  recipientFp : String
  senderHint : String
  bucket : Nat
  ct : String
  deriving DecidableEq

def envelopeTtlMs : Nat := 24 * 60 * 60 * 1000

def maxEnvPerSlot : Nat := 16

def maxTotalEnvelopes : Nat := 100000

def maxTotalBytes : Nat := 64 * 1024 * 1024

structure StoredEnvelope where
  envelope : PhantomEnvelope
  expiresAt : Nat
  deriving DecidableEq

structure DeadDropStore where
  slots : AssocMap String (List StoredEnvelope) := ∅

/--
The order in which a hash map yields its entries, which is any order at all.
-/
structure IterOrder where
  entries : AssocMap String (List StoredEnvelope) → List (Sigma fun _ : String => List StoredEnvelope)
  perm (m : AssocMap String (List StoredEnvelope)) : (entries m).Perm m.entries

def IterOrder.insertion : IterOrder where
  entries m := m.entries
  perm _ := .refl _

namespace DeadDropStore

/--
The queue of a slot; a slot without one has none waiting.
-/
def queue (store : DeadDropStore) (slot : String) : List StoredEnvelope :=
  (store.slots.lookup slot).getD []

def liveCount (store : DeadDropStore) : Nat := AssocMap.total List.length store.slots

def queueBytes (queue : List StoredEnvelope) : Nat :=
  (queue.map fun entry => Text.len entry.envelope.ct).sum

def liveBytes (store : DeadDropStore) : Nat := AssocMap.total queueBytes store.slots

/--
Drop the envelopes at the front of a queue that are dead at time `now`.
-/
def popExpired (now : Nat) (queue : List StoredEnvelope) : List StoredEnvelope :=
  queue.dropWhile (·.expiresAt ≤ now)

def sweepExpired (store : DeadDropStore) (now : Nat) : Nat × DeadDropStore :=
  let popped := store.slots.mapValues fun _ queue => popExpired now queue
  (store.liveCount - AssocMap.total List.length popped,
    { slots := popped.retain fun _ queue => !queue.isEmpty })

def oldestSlot (store : DeadDropStore) (order : IterOrder) : Option String :=
  let fronts := (order.entries store.slots).filterMap fun x =>
    x.2.head?.map fun entry => (x.1, entry.expiresAt)
  (minByKey (·.2) fronts).map (·.1)

def popFront (store : DeadDropStore) (slot : String) : DeadDropStore :=
  let slots := store.slots.modify slot List.tail
  { slots := if (slots.lookup slot).map List.isEmpty = some true then slots.erase slot else slots }

theorem head?_isSome_of_oldestSlot {store : DeadDropStore} {order : IterOrder} {slot : String}
    (h : store.oldestSlot order = some slot)
    : ∃ entry rest, store.slots.lookup slot = some (entry :: rest) := by
  rw [oldestSlot, Option.map_eq_some_iff] at h
  obtain ⟨⟨slot', expiresAt⟩, hmin, rfl⟩ := h
  obtain ⟨⟨slot, queue⟩, hmem, hfront⟩ := List.mem_filterMap.1 (mem_of_minByKey hmin)
  obtain ⟨entry, hhead, hpair⟩ := Option.map_eq_some_iff.1 hfront
  cases hpair
  obtain ⟨rest, rfl⟩ := List.head?_eq_some_iff.1 hhead
  exact ⟨entry, rest, AList.mem_lookup_iff.2 ((order.perm _).mem_iff.1 hmem)⟩

theorem total_popFront {store : DeadDropStore} {slot : String} {entry : StoredEnvelope}
    {rest : List StoredEnvelope} (f : List StoredEnvelope → Nat) (hnil : f [] = 0)
    (h : store.slots.lookup slot = some (entry :: rest))
    : AssocMap.total f (store.popFront slot).slots + f (entry :: rest)
        = AssocMap.total f store.slots + f rest := by
  have hmodify : store.slots.modify slot List.tail = store.slots.insert slot rest := by
    simp [AssocMap.modify, h]
  rw [popFront]
  simp only [hmodify, AList.lookup_insert, Option.map_some, Option.some.injEq]
  rw [AssocMap.total_eq_erase f slot store.slots, h]
  split
  next hempty =>
    obtain rfl := List.isEmpty_iff.1 hempty
    have hinsert := AssocMap.total_insert f slot [] store.slots
    have herase := AssocMap.total_eq_erase f slot (store.slots.insert slot [])
    rw [AList.lookup_insert] at herase
    simp only [Option.map_some, Option.getD_some, hnil] at hinsert herase ⊢
    omega
  next =>
    have hinsert := AssocMap.total_insert f slot rest store.slots
    simp only [Option.map_some, Option.getD_some]
    omega

theorem liveCount_popFront_lt {store : DeadDropStore} {order : IterOrder} {slot : String}
    (h : store.oldestSlot order = some slot) : (store.popFront slot).liveCount < store.liveCount := by
  obtain ⟨entry, rest, hlookup⟩ := head?_isSome_of_oldestSlot h
  have htotal := total_popFront List.length rfl hlookup
  simp only [List.length_cons] at htotal
  simp only [liveCount]
  omega

/--
Remove the oldest envelopes until the store is within its bound.
-/
def evictOldest (store : DeadDropStore) (order : IterOrder) : DeadDropStore :=
  if maxTotalEnvelopes < store.liveCount then
    match _h : store.oldestSlot order with
    | none => store
    | some slot => (store.popFront slot).evictOldest order
  else
    store
termination_by store.liveCount
decreasing_by exact liveCount_popFront_lt _h

/--
The time at which an envelope that is stored at time `now` dies, in 64 bits.
-/
def expiryOf (now : Nat) : Nat := (now + envelopeTtlMs) % 2 ^ 64

def pushBounded (queue : List StoredEnvelope) (entry : StoredEnvelope) : List StoredEnvelope :=
  let queue := queue ++ [entry]
  queue.drop (queue.length - maxEnvPerSlot)

def deposit (store : DeadDropStore) (order : IterOrder) (envelope : PhantomEnvelope) (now : Nat)
    : DeadDropStore :=
  let slot := envelope.slotId
  let entry : StoredEnvelope := { envelope, expiresAt := expiryOf now }
  let store : DeadDropStore := { slots := store.slots.insert slot (pushBounded (store.queue slot) entry) }
  if maxTotalEnvelopes < store.liveCount then
    (store.sweepExpired now).2.evictOldest order
  else
    store

def tryDeposit (store : DeadDropStore) (order : IterOrder) (envelope : PhantomEnvelope) (now : Nat)
    : Bool × DeadDropStore :=
  if maxTotalBytes < min (store.liveBytes + Text.len envelope.ct) (2 ^ 64 - 1) then
    (false, store)
  else
    (true, store.deposit order envelope now)

def claim (store : DeadDropStore) (slot : String) (now : Nat)
    : Option PhantomEnvelope × DeadDropStore :=
  match store.slots.lookup slot with
  | none => (none, store)
  | some queue =>
    match popExpired now queue with
    | [] => (none, { slots := store.slots.insert slot [] })
    | entry :: rest =>
      let slots := if rest.isEmpty then store.slots.erase slot else store.slots.insert slot rest
      (some entry.envelope, { slots })

end DeadDropStore

end Lqxp
