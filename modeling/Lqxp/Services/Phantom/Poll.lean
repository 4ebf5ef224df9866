import Lqxp.Services.Phantom.Deposit
import Lqxp.Services.Phantom.Delivery

/-!
This module contains the poll of the mailbox, and when it serves all the slots that it is asked for.
-/

namespace Lqxp

def maxSlotsPerPoll : Nat := 64

def maxWant : Nat := 8

structure PhantomPollRequest where
  slots : List String := []
  want : Nat := 8

namespace DeadDropStore

def claimSlots (now : Nat) : List String → DeadDropStore → List (Option PhantomEnvelope) × DeadDropStore
  | [], store => ([], store)
  | slot :: slots, store =>
    let (frame, store) := store.claim slot now
    let (frames, store) := claimSlots now slots store
    (frame :: frames, store)

end DeadDropStore

/--
The slots behind the first `want` of them are not looked at.
-/
def poll (rateNow now : Nat) (req : PhantomPollRequest) : Gated (List (Option PhantomEnvelope)) := do
  refuseIf (maxSlotsPerPoll < req.slots.length) (.badRequest "Too many slots requested.")
  let want := min req.want maxWant
  rateLimit rateNow "phantom:poll:global" 20 1000 (.tooManyRequests "Poll rate limit exceeded.")
  let gates ← get
  let (frames, phantomStore) := gates.phantomStore.claimSlots now (req.slots.take want)
  set { gates with phantomStore }
  return frames ++ List.replicate (want - frames.length) none

namespace DeadDropStore

variable {store : DeadDropStore} {slot slot' : String} {now : Nat}

/--
The envelopes of a slot that have not expired, the oldest of them first.
-/
def alive (store : DeadDropStore) (slot : String) (now : Nat) : List StoredEnvelope :=
  (store.queue slot).filter (now < ·.expiresAt)

def oldest (store : DeadDropStore) (slot : String) (now : Nat) : Option PhantomEnvelope :=
  (store.alive slot now).head?.map (·.envelope)

theorem filter_popExpired (now : Nat) (q : List StoredEnvelope)
    : (popExpired now q).filter (now < ·.expiresAt) = q.filter (now < ·.expiresAt) := by
  induction q with
  | nil => rfl
  | cons entry q ih =>
    rw [popExpired, List.dropWhile_cons]
    split
    next hexpired =>
      have hnot : ¬now < entry.expiresAt := Nat.not_lt.2 (of_decide_eq_true hexpired)
      rw [List.filter_cons_of_neg (by simpa using hnot)]
      exact ih
    next => rfl

theorem claim_eq (store : DeadDropStore) (slot : String) (now : Nat)
    : (store.claim slot now).1 = (popExpired now (store.queue slot)).head?.map (·.envelope)
        ∧ ∀ slot', (store.claim slot now).2.queue slot'
          = if slot' = slot then (popExpired now (store.queue slot)).tail else store.queue slot' := by
  cases hlookup : store.slots.lookup slot with
  | none =>
    have hqueue : store.queue slot = [] := by simp [queue, hlookup]
    refine ⟨by simp [claim, hlookup, hqueue, popExpired], fun slot' => ?_⟩
    simp only [claim, hlookup, hqueue]
    split
    next heq =>
      rw [heq, hqueue]
      rfl
    next => rfl
  | some q =>
    have hqueue : store.queue slot = q := by simp [queue, hlookup]
    rw [hqueue]
    cases hpopped : popExpired now q with
    | nil =>
      refine ⟨by simp [claim, hlookup, hpopped], fun slot' => ?_⟩
      simp only [claim, hlookup, hpopped]
      exact queue_insert store.slots slot slot' []
    | cons entry rest =>
      refine ⟨by simp [claim, hlookup, hpopped], fun slot' => ?_⟩
      simp only [claim, hlookup, hpopped]
      split
      next hempty =>
        obtain rfl := List.isEmpty_iff.1 hempty
        simp only [queue, AssocMap.lookup_erase]
        split <;> rfl
      next => exact queue_insert store.slots slot slot' rest

theorem alive_eq (store : DeadDropStore) (slot : String) (now : Nat)
    : store.alive slot now
        = match popExpired now (store.queue slot) with
          | [] => []
          | entry :: rest => entry :: rest.filter (now < ·.expiresAt) := by
  rw [alive, ← filter_popExpired]
  cases hpopped : popExpired now (store.queue slot) with
  | nil => rfl
  | cons entry rest =>
    have hhead := List.head?_dropWhile_not (fun entry : StoredEnvelope => entry.expiresAt ≤ now) (store.queue slot)
    rw [← popExpired, hpopped] at hhead
    exact List.filter_cons_of_pos (by simpa using hhead)

theorem claim_fst (store : DeadDropStore) (slot : String) (now : Nat)
    : (store.claim slot now).1 = store.oldest slot now := by
  rw [oldest, (claim_eq store slot now).1, alive_eq]
  cases popExpired now (store.queue slot) with
  | nil => rfl
  | cons entry rest => rfl

theorem alive_claim (store : DeadDropStore) (slot slot' : String) (now : Nat)
    : (store.claim slot now).2.alive slot' now
        = if slot' = slot then (store.alive slot now).tail else store.alive slot' now := by
  rw [alive, (claim_eq store slot now).2]
  split
  . rw [alive_eq]
    cases popExpired now (store.queue slot) with
    | nil => rfl
    | cons entry rest => rfl
  . rfl

theorem alive_claimSlots (slots : List String) (store : DeadDropStore) (slot : String) (now : Nat)
    : (store.claimSlots now slots).2.alive slot now = (store.alive slot now).drop (slots.count slot) := by
  induction slots generalizing store with
  | nil => rfl
  | cons slot' slots ih =>
    rw [claimSlots, ih, alive_claim]
    split
    next heq =>
      rw [heq, List.count_cons_self, ← List.drop_one, List.drop_drop, Nat.add_comm]
    next hne => rw [List.count_cons_of_ne (Ne.symm hne)]

theorem length_claimSlots (slots : List String) (store : DeadDropStore) (now : Nat)
    : (store.claimSlots now slots).1.length = slots.length := by
  induction slots generalizing store with
  | nil => rfl
  | cons slot slots ih => rw [claimSlots, List.length_cons, ih, List.length_cons]

/--
A slot that is claimed more than once has one envelope at most.
-/
def NoSecond (store : DeadDropStore) (slots : List String) (now : Nat) : Prop :=
  ∀ slot, 1 < slots.count slot → (store.alive slot now).length ≤ 1

theorem NoSecond.of_nodup {slots : List String} (h : slots.Nodup) : store.NoSecond slots now :=
  fun slot hcount => absurd (List.nodup_iff_count_le_one.1 h slot) (Nat.not_le.2 hcount)

theorem NoSecond.claim {slots : List String} (h : store.NoSecond (slot :: slots) now)
    : (store.claim slot now).2.NoSecond slots now := by
  intro slot' hcount
  have hle := h slot' (Nat.lt_of_lt_of_le hcount (List.count_le_count_cons ..))
  rw [alive_claim]
  split
  next heq =>
    rw [heq] at hle
    exact Nat.le_trans (by simp) hle
  next => exact hle

theorem exists_served {slots : List String} (h : store.NoSecond slots now)
    : ∃ served : List String, served.Nodup
        ∧ (∀ slot, slot ∈ served ↔ slot ∈ slots ∧ store.alive slot now ≠ [])
        ∧ (store.claimSlots now slots).1.filter (·.isSome) = served.map (store.oldest · now) := by
  induction slots generalizing store with
  | nil => exact ⟨[], List.nodup_nil, by simp, rfl⟩
  | cons slot slots ih =>
    obtain ⟨served, hnodup, hmem, hframes⟩ := ih h.claim
    simp only [claimSlots]
    rw [List.filter_cons, claim_fst]
    cases halive : store.alive slot now with
    | nil =>
      have hsame (slot' : String) : (store.claim slot now).2.alive slot' now = store.alive slot' now := by
        rw [alive_claim, halive]
        split
        next heq =>
          rw [heq, halive]
          rfl
        next => rfl
      simp only [oldest, hsame] at hmem hframes
      refine ⟨served, hnodup, fun slot' => ?_, ?_⟩
      swap
      . rw [oldest, halive]
        exact hframes
      rw [hmem, List.mem_cons]
      refine ⟨fun ⟨hslot, hne⟩ => ⟨.inr hslot, hne⟩, fun ⟨hslot, hne⟩ => ⟨hslot.resolve_left ?_, hne⟩⟩
      rintro rfl
      exact hne halive
    | cons entry rest =>
      have hother {slot' : String} (hne : slot' ≠ slot)
          : (store.claim slot now).2.alive slot' now = store.alive slot' now := by
        rw [alive_claim, if_neg hne]
      have hnot : slot ∉ served := by
        intro hserved
        obtain ⟨hslot, hne⟩ := (hmem slot).1 hserved
        have hle := h slot (by
          rw [List.count_cons_self]
          exact Nat.succ_lt_succ (List.count_pos_iff.2 hslot))
        rw [alive_claim, if_pos rfl, halive, List.tail_cons] at hne
        rw [halive, List.length_cons] at hle
        exact hne (List.eq_nil_of_length_eq_zero (by omega))
      refine ⟨slot :: served, List.nodup_cons.2 ⟨hnot, hnodup⟩, fun slot' => ?_, ?_⟩
      . by_cases heq : slot' = slot
        . rw [heq, halive]
          simp
        . rw [List.mem_cons, List.mem_cons, or_iff_right heq, or_iff_right heq, hmem, hother heq]
      . have hrest : served.map ((store.claim slot now).2.oldest · now) = served.map (store.oldest · now) := by
          refine List.map_congr_left fun slot' hserved => ?_
          rw [oldest, oldest, hother (ne_of_mem_of_not_mem hserved hnot)]
        rw [hframes, hrest, List.map_cons, oldest, halive]
        rfl

theorem none_notMem_claimSlots_iff {slots : List String} (h : store.NoSecond slots now)
    : none ∉ (store.claimSlots now slots).1 ↔ slots.Nodup ∧ ∀ slot ∈ slots, store.alive slot now ≠ [] := by
  induction slots generalizing store with
  | nil => simp [claimSlots]
  | cons slot slots ih =>
    have hframe : none = (store.claim slot now).1 ↔ store.alive slot now = [] := by
      rw [claim_fst, oldest, eq_comm, Option.map_eq_none_iff, List.head?_eq_none_iff]
    simp only [claimSlots, List.mem_cons, not_or]
    rw [hframe, ih h.claim, List.nodup_cons]
    constructor
    . rintro ⟨hslot, hnodup, hall⟩
      have hnot : slot ∉ slots := by
        intro hmem
        have hle := h slot (by
          rw [List.count_cons_self]
          exact Nat.succ_lt_succ (List.count_pos_iff.2 hmem))
        have hne := hall slot hmem
        rw [alive_claim, if_pos rfl] at hne
        refine hne (List.eq_nil_of_length_eq_zero ?_)
        rw [List.length_tail]
        omega
      refine ⟨⟨hnot, hnodup⟩, ?_⟩
      rintro slot' (rfl | hmem)
      . exact hslot
      . have hne := hall slot' hmem
        rwa [alive_claim, if_neg (ne_of_mem_of_not_mem hmem hnot)] at hne
    . rintro ⟨⟨hnot, hnodup⟩, hall⟩
      refine ⟨hall slot (.inl rfl), hnodup, fun slot' hmem => ?_⟩
      rw [alive_claim, if_neg (ne_of_mem_of_not_mem hmem hnot)]
      exact hall slot' (.inr hmem)

end DeadDropStore

/--
What a poll for the given slots promises: every slot that has an envelope gives its oldest one, as far as there are
frames, and nothing else is taken.
-/
structure ServesSlots (store store' : DeadDropStore) (slots : List String) (want now : Nat)
    (frames : List (Option PhantomEnvelope)) (served : List String) : Prop where
  length : frames.length = min want maxWant
  requested : served ⊆ slots
  nodup : served.Nodup
  waiting : ∀ slot ∈ served, store.alive slot now ≠ []
  returned : frames.filter (·.isSome) = served.map (store.oldest · now)
  null : none ∈ frames → ∀ slot ∈ slots, slot ∉ served → store.alive slot now = []
  kept (slot : String)
    : store'.alive slot now = if slot ∈ served then (store.alive slot now).tail else store.alive slot now

section Polls

variable {store : DeadDropStore} {slots served : List String} {want n now : Nat} {frames : List (Option PhantomEnvelope)}

theorem ServesSlots.noSecond
    (h : ServesSlots store (store.claimSlots now (slots.take n)).2 slots want now frames served)
    : store.NoSecond (slots.take n) now := by
  intro slot hcount
  have hkept := congrArg List.length (h.kept slot)
  rw [DeadDropStore.alive_claimSlots, List.length_drop] at hkept
  split at hkept
  . rw [List.length_tail] at hkept
    omega
  . omega

theorem ServesSlots.not_mem
    (h : ServesSlots store (store.claimSlots now (slots.take n)).2 slots want now frames served) {slot : String}
    (hslot : slot ∉ slots.take n) : slot ∉ served := by
  intro hserved
  have hkept := congrArg List.length (h.kept slot)
  rw [DeadDropStore.alive_claimSlots, List.count_eq_zero_of_not_mem hslot, List.drop_zero, if_pos hserved,
    List.length_tail] at hkept
  exact h.waiting slot hserved (List.eq_nil_of_length_eq_zero (by omega))

theorem exists_servesSlots_iff (store : DeadDropStore) (slots : List String) (want now : Nat)
    : (∃ served, ServesSlots store (store.claimSlots now (slots.take (min want maxWant))).2 slots want now
          ((store.claimSlots now (slots.take (min want maxWant))).1
            ++ List.replicate (min want maxWant - (slots.take (min want maxWant)).length) none) served)
        ↔ store.NoSecond (slots.take (min want maxWant)) now
          ∧ ((∀ slot ∈ slots, slot ∉ slots.take (min want maxWant) → store.alive slot now = [])
            ∨ (slots.take (min want maxWant)).Nodup
              ∧ ∀ slot ∈ slots.take (min want maxWant), store.alive slot now ≠ []) := by
  have hlength := DeadDropStore.length_claimSlots (slots.take (min want maxWant)) store now
  constructor
  . rintro ⟨served, h⟩
    refine ⟨h.noSecond, ?_⟩
    by_contra hor
    obtain ⟨hmissed, hfilled⟩ := not_or.1 hor
    rw [← DeadDropStore.none_notMem_claimSlots_iff h.noSecond, not_not] at hfilled
    refine hmissed fun slot hslot hnot => ?_
    exact h.null (List.mem_append_left _ hfilled) slot hslot (h.not_mem hnot)
  . rintro ⟨hsecond, hor⟩
    obtain ⟨served, hnodup, hmem, hreturned⟩ := DeadDropStore.exists_served hsecond
    refine ⟨served, ?_, fun slot hserved => List.mem_of_mem_take ((hmem slot).1 hserved).1, hnodup,
      fun slot hserved => ((hmem slot).1 hserved).2, ?_, fun hnull slot hslot hnot => ?_, fun slot => ?_⟩
    . rw [List.length_append, hlength, List.length_replicate, List.length_take]
      omega
    . rw [List.filter_append, hreturned, List.filter_eq_nil_iff.2 (by simp), List.append_nil]
    . by_contra hwaiting
      have houtside : slot ∉ slots.take (min want maxWant) := fun hin => hnot ((hmem slot).2 ⟨hin, hwaiting⟩)
      -- then there are more slots than frames, and each frame is filled
      have hfilled := hor.resolve_left fun hmissed => hwaiting (hmissed slot hslot houtside)
      rcases List.mem_append.1 hnull with hnull | hpadding
      . exact (DeadDropStore.none_notMem_claimSlots_iff hsecond).2 hfilled hnull
      . rw [List.mem_replicate] at hpadding
        refine houtside ?_
        rw [List.take_of_length_le]
        . exact hslot
        . rw [List.length_take] at hpadding
          omega
    . rw [DeadDropStore.alive_claimSlots]
      split
      next hserved =>
        obtain ⟨hin, hwaiting⟩ := (hmem slot).1 hserved
        by_cases honce : (slots.take (min want maxWant)).count slot = 1
        . rw [honce, List.drop_one]
        . have hpos := List.count_pos_iff.2 hin
          have hle := hsecond slot (by omega)
          have htail : (store.alive slot now).tail = [] := by
            refine List.eq_nil_of_length_eq_zero ?_
            rw [List.length_tail]
            omega
          rw [List.drop_eq_nil_of_le (by omega), htail]
      next hnot =>
        by_cases hin : slot ∈ slots.take (min want maxWant)
        . rw [not_not.1 fun hwaiting => hnot ((hmem slot).2 ⟨hin, hwaiting⟩), List.drop_nil]
        . rw [List.count_eq_zero_of_not_mem hin, List.drop_zero]

theorem poll_eq_ok (now : Nat) {s : Gates} {rateNow : Nat} {req : PhantomPollRequest} (hslots : req.slots.length ≤ maxSlotsPerPoll)
    (hlimit : (rateLimitHit rateNow "phantom:poll:global" 20 1000 s.rateLimits).1 = false)
    : ∃ rateLimits, poll rateNow now req s
        = .ok ((s.phantomStore.claimSlots now (req.slots.take (min req.want maxWant))).1
            ++ List.replicate (min req.want maxWant - (req.slots.take (min req.want maxWant)).length) none)
          { s with rateLimits,
                   phantomStore := (s.phantomStore.claimSlots now (req.slots.take (min req.want maxWant))).2 } := by
  refine ⟨(rateLimitHit rateNow "phantom:poll:global" 20 1000 s.rateLimits).2, ?_⟩
  rw [← DeadDropStore.length_claimSlots (req.slots.take (min req.want maxWant)) s.phantomStore now]
  simp only [poll, rateLimit, bind_assoc, refuseIf_bind, get_bind, set_bind, hlimit, if_neg (Nat.not_lt.2 hslots),
    Bool.false_eq_true, if_false]
  rfl

/--
A poll that is not refused serves all slots if and only if none of those looked at is named twice while it has
a second envelope to give, and those not looked at have none, unless every frame is filled.
-/
theorem poll_serves_iff {s : Gates} {rateNow : Nat} {req : PhantomPollRequest}
    (hslots : req.slots.length ≤ maxSlotsPerPoll)
    (hlimit : (rateLimitHit rateNow "phantom:poll:global" 20 1000 s.rateLimits).1 = false)
    : ∃ frames s', poll rateNow now req s = .ok frames s'
        ∧ ((∃ served, ServesSlots s.phantomStore s'.phantomStore req.slots req.want now frames served)
          ↔ s.phantomStore.NoSecond (req.slots.take (min req.want maxWant)) now
            ∧ ((∀ slot ∈ req.slots, slot ∉ req.slots.take (min req.want maxWant) → s.phantomStore.alive slot now = [])
              ∨ (req.slots.take (min req.want maxWant)).Nodup
                ∧ ∀ slot ∈ req.slots.take (min req.want maxWant), s.phantomStore.alive slot now ≠ [])) := by
  obtain ⟨rateLimits, hpoll⟩ := poll_eq_ok now hslots hlimit
  exact ⟨_, _, hpoll, exists_servesSlots_iff _ _ _ _⟩

end Polls

section Mailbox

def envelopeFor (slot ct : String) : PhantomEnvelope :=
  { pv := 1, slotId := slot, recipientFp := "fp", senderHint := "hint", bucket := 4096, ct }

/--
A mailbox with two envelopes in slot `a` and one in slot `b`.
-/
def fullMailbox : Gates :=
  { phantomStore :=
      { slots := AList.insert "a" [⟨envelopeFor "a" "one", 100⟩, ⟨envelopeFor "a" "two", 200⟩]
          (AList.insert "b" [⟨envelopeFor "b" "three", 100⟩] ∅) } }

theorem not_limited_fullMailbox : (rateLimitHit 0 "phantom:poll:global" 20 1000 fullMailbox.rateLimits).1 = false := by
  decide +kernel

def pollFor (slots : List String) : PhantomPollRequest := { slots, want := 3 }

theorem poll_serves_iff_fullMailbox
    : ∃ frames s', poll 0 50 (pollFor ["a", "b", "c"]) fullMailbox = .ok frames s'
        ∧ ∃ served, ServesSlots fullMailbox.phantomStore s'.phantomStore ["a", "b", "c"] 3 50 frames served := by
  have hslots : (pollFor ["a", "b", "c"]).slots.length ≤ maxSlotsPerPoll := by decide
  obtain ⟨frames, s', hpoll, hiff⟩ := @poll_serves_iff 50 fullMailbox 0 (pollFor ["a", "b", "c"]) hslots
    not_limited_fullMailbox
  have hnodup : ["a", "b", "c"].Nodup := by decide
  exact ⟨frames, s', hpoll, hiff.2 ⟨.of_nodup hnodup, .inl fun slot hslot hnot => absurd hslot hnot⟩⟩

/--
Both envelopes of a slot that is named twice are taken.
-/
theorem not_poll_serves
    : ¬∀ (s : Gates) (rateNow now : Nat) (req : PhantomPollRequest), req.slots.length ≤ maxSlotsPerPoll →
        (rateLimitHit rateNow "phantom:poll:global" 20 1000 s.rateLimits).1 = false →
          ∃ frames s', poll rateNow now req s = .ok frames s'
            ∧ ∃ served, ServesSlots s.phantomStore s'.phantomStore req.slots req.want now frames served := by
  intro hall
  have hslots : (pollFor ["a", "a"]).slots.length ≤ maxSlotsPerPoll := by decide
  obtain ⟨frames, s', hpoll, served, hserves⟩ := hall fullMailbox 0 50 (pollFor ["a", "a"]) hslots not_limited_fullMailbox
  obtain ⟨rateLimits, hresult⟩ := poll_eq_ok 50 hslots not_limited_fullMailbox
  obtain ⟨-, rfl⟩ := EStateM.Result.ok.inj (hpoll.symm.trans hresult)
  have htwo : 1 < (["a", "a"].take (min 3 maxWant)).count "a" := by decide
  have hsecond : (fullMailbox.phantomStore.alive "a" 50).length ≤ 1 := hserves.noSecond "a" htwo
  exact absurd hsecond (by decide +kernel)

end Mailbox

end Lqxp
