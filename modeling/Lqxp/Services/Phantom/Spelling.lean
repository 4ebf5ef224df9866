import Lqxp.Services.Phantom.Blocking

/-!
This module contains the refusal of the envelopes of a blocked sender. Identifiers are read as hexadecimal
but compared as text, so that it is not the same for all their spellings.
-/

namespace Lqxp

open Tabled

section Refusal

variable (c : Crypto)

/--
Every deposit of the envelope fails, and those that come as far as the block check fail there, unless the
statement behind the check fails.
-/
def PhantomTables.Rejects (s : PhantomTables) (envelope : PhantomEnvelope) : Prop :=
  ∀ (faults : List Bool) (e : DepositEnv) (gate : PhantomGate) (gates : Gates), ∃ err gates',
    deposit c { s with faults }.answer e { envelope, gate } gates = .error err gates'
      ∧ (faults.head? ≠ some true →
        (rateLimitHit e.rateNow "phantom:deposit:global" 20 1000 gates.rateLimits).1 = false →
        validateGate gate = .ok () → err = .forbidden "Deposit rejected.")

variable {c}

theorem PhantomTables.answer_eq (s : PhantomTables) (tag : String)
    : s.answer tag
        = if s.faults.head? = some true then .error .internal else .ok (s.blocks.lookup tag).isSome := by
  rw [PhantomTables.answer, isBlockedTag, tableStatement]
  split
  next h =>
    split at h
    . contradiction
    next hfaults =>
      obtain ⟨rfl, -⟩ := EStateM.Result.ok.inj h
      rw [if_neg hfaults]
  next h =>
    split at h
    next hfaults =>
      obtain ⟨rfl, -⟩ := EStateM.Result.error.inj h
      rw [if_pos hfaults]
    . contradiction

theorem rejects_of_refuses {s : PhantomTables} {envelope : PhantomEnvelope}
    (hvalid : validateEnvelope envelope = .ok ()) (h : s.refuses c envelope = true)
    : s.Rejects c envelope := by
  intro faults e gate gates
  obtain ⟨rateLimits, hanswer⟩ := admitDeposit_eq (c := c) { s with faults }.answer e { envelope, gate } gates
  rw [PhantomTables.refuses] at h
  simp only [hvalid, PhantomTables.answer_eq, h] at hanswer
  split at hanswer
  next hhit =>
    exact ⟨_, _, deposit_eq_error hanswer, fun _ hrate => absurd (hhit.symm.trans hrate) (by decide)⟩
  next =>
    cases hgate : validateGate gate with
    | error err =>
      rw [hgate] at hanswer
      exact ⟨err, _, deposit_eq_error hanswer, fun _ _ h => absurd h (by simp)⟩
    | ok u =>
      by_cases hfault : faults.head? = some true
      . rw [hgate, if_pos hfault] at hanswer
        exact ⟨_, _, deposit_eq_error hanswer, fun hfaults => absurd hfault hfaults⟩
      . rw [hgate, if_neg hfault] at hanswer
        exact ⟨_, _, deposit_eq_error hanswer, fun _ _ _ => rfl⟩

theorem refuses_of_rejects {s : PhantomTables} {envelope : PhantomEnvelope}
    (hvalid : validateEnvelope envelope = .ok ()) (h : s.Rejects c envelope)
    : s.refuses c envelope = true := by
  by_contra hpass
  have hpass := Bool.not_eq_true _ ▸ hpass
  let e : DepositEnv := ⟨0, 0, 0, 0, 0, 0, .insertion⟩
  obtain ⟨err, gates', herr, hforbidden⟩ := h [] e { mode := .cap } {}
  obtain ⟨rateLimits, hanswer⟩ :=
    admitDeposit_eq (c := c) { s with faults := [] }.answer e { envelope, gate := { mode := .cap } } {}
  have hhit : (rateLimitHit e.rateNow "phantom:deposit:global" 20 1000 {}).1 = false := by decide
  have hgate : validateGate { mode := .cap } = .ok () := by decide
  rw [PhantomTables.refuses] at hpass
  simp only [hvalid, PhantomTables.answer_eq, hpass] at hanswer
  rw [hforbidden (by simp) hhit hgate, deposit_eq_error hanswer] at herr
  simp [ApiError.badRequest, ApiError.forbidden] at herr

theorem rejects_iff_refuses {s : PhantomTables} {envelope : PhantomEnvelope}
    (hvalid : validateEnvelope envelope = .ok ()) : s.Rejects c envelope ↔ s.refuses c envelope = true :=
  ⟨refuses_of_rejects hvalid, rejects_of_refuses hvalid⟩

end Refusal

theorem len_of_validateEnvelope {envelope : PhantomEnvelope} (h : validateEnvelope envelope = .ok ())
    : Text.len envelope.recipientFp = 64 := by
  have hhex : isHex64 envelope.recipientFp = true := by
    rw [validateEnvelope] at h
    split at h
    . contradiction
    . dsimp only at h
      split at h
      . contradiction
      next hhex => simp_all
  rw [isHex64, Bool.and_eq_true] at hhex
  exact of_decide_eq_true hhex.1

section Run

variable {c : Crypto} {v : DeviceSignatures} {known : Set (List UInt8)}

/--
All rows are blocks of fingerprints, made of texts that the digest tells apart.
-/
def Tagged (c : Crypto) (known : Set (List UInt8)) (s : PhantomTables) : Prop :=
  s.blocks.All fun tag _ => ∃ pk hint, tag = blockTag c (fingerprintOf c pk) hint
    ∧ utf8 (fingerprintOf c pk) ++ utf8 hint ∈ known

theorem tagged_event {call : BlockCall} {s : PhantomTables}
    (hhashed : ∀ bytes ∈ (call.event c v s).hashed c, bytes ∈ known) (h : Tagged c known s)
    : Tagged c known (call.event c v s).after := by
  intro tag owner hlookup
  obtain hsame | ⟨userId, fp, hint, rfl, hstores | ⟨-, -, hgone⟩⟩ :=
    call.lookup_cases (c := c) (v := v) s tag
  . exact h tag owner (hsame ▸ hlookup)
  . have hmem := hhashed _ (mem_hashed_of_stores hstores)
    obtain ⟨_, _, -, hfp, -⟩ := hstores
    obtain ⟨pk, rfl⟩ := exists_fingerprintOf hfp
    exact ⟨pk, hint, rfl, hmem⟩
  . rw [hgone] at hlookup
    contradiction

theorem lookup_event_of_not_removes (hinj : Set.InjOn c.sha256 known) {pk : List UInt8} {hint owner : String}
    {call : BlockCall} {s : PhantomTables}
    (hhashed : ∀ bytes ∈ (call.event c v s).hashed c, bytes ∈ known)
    (hmem : utf8 (fingerprintOf c pk) ++ utf8 hint ∈ known)
    (hkept : ¬ (call.event c v s).Removes c owner (fingerprintOf c pk) hint)
    (h : s.blocks.lookup (blockTag c (fingerprintOf c pk) hint) = some owner)
    : (call.event c v s).after.blocks.lookup (blockTag c (fingerprintOf c pk) hint) = some owner := by
  obtain hsame | ⟨other, hstores | ⟨hremoves, hother, -⟩⟩ :=
    call.block_cases (v := v) (s := s) hinj hhashed hmem
  . exact hsame.trans h
  . obtain ⟨_, _, -, -, -, hnone, -⟩ := hstores
    rw [before_event, h] at hnone
    contradiction
  . obtain rfl := Option.some.inj (hother.symm.trans h)
    exact absurd hremoves hkept

/--
The account has added the hint under the fingerprint, the row was there afterwards, and its owner has
not asked for its removal since.
-/
def HasBlocked (c : Crypto) (v : DeviceSignatures) (faults : List Bool) (calls : List BlockCall)
    (userId fp hint : String) : Prop :=
  ∃ pre add remove post owner, calls = pre ++ .update userId add remove :: post
    ∧ (afterCalls c v pre { faults }).publishedFp c userId = some fp ∧ hint ∈ add
    ∧ (afterCalls c v (pre ++ [.update userId add remove]) { faults }).blocks.lookup (blockTag c fp hint)
      = some owner
    ∧ ∀ ev ∈ events c v post (afterCalls c v (pre ++ [.update userId add remove]) { faults }),
      ¬ ev.Removes c owner fp hint

theorem tagged_of_run {calls : List BlockCall} {faults : List Bool}
    (hhashed : ∀ ev ∈ events c v calls { faults }, ∀ bytes ∈ ev.hashed c, bytes ∈ known)
    : Tagged c known (afterCalls c v calls { faults }) := by
  refine afterCalls_induction AssocMap.All.empty fun ev hev h => ?_
  obtain ⟨call, s, rfl⟩ := exists_event hev
  rw [before_event] at h
  exact tagged_event (hhashed _ hev) h

theorem afterCalls_append (calls calls' : List BlockCall) (s : PhantomTables)
    : afterCalls c v (calls ++ calls') s = afterCalls c v calls' (afterCalls c v calls s) := by
  induction calls generalizing s with
  | nil => rfl
  | cons call calls ih => exact ih _

theorem HasBlocked.refused (hinj : Set.InjOn c.sha256 known) {calls : List BlockCall} {faults : List Bool}
    {userId fp hint : String}
    (hhashed : ∀ ev ∈ events c v calls { faults }, ∀ bytes ∈ ev.hashed c, bytes ∈ known)
    (h : HasBlocked c v faults calls userId fp hint)
    : (∃ pk, fp = fingerprintOf c pk) ∧
        (afterCalls c v calls { faults }).blocks.lookup (blockTag c fp hint) ≠ none := by
  obtain ⟨pre, add, remove, post, owner, rfl, hfp, hadd, hstored, hkept⟩ := h
  obtain ⟨pk, rfl⟩ := exists_fingerprintOf hfp
  have hcalls : pre ++ .update userId add remove :: post = (pre ++ [.update userId add remove]) ++ post := by
    simp
  rw [hcalls, events_append] at hhashed
  have hmem : utf8 (fingerprintOf c pk) ++ utf8 hint ∈ known := by
    refine hhashed ((BlockCall.update userId add remove).event c v (afterCalls c v pre { faults })) ?_ _ ?_
    . rw [events_append]
      exact List.mem_append_left _ (List.mem_append_right _ (.head _))
    . rw [BlockEvent.hashed, call_event]
      simp only [before_event, hfp]
      exact List.mem_map.2 ⟨hint, List.mem_append_left _ hadd, rfl⟩
  refine ⟨⟨pk, rfl⟩, ?_⟩
  rw [hcalls, afterCalls_append]
  have hlookup : (afterCalls c v post _).blocks.lookup (blockTag c (fingerprintOf c pk) hint) = some owner :=
    afterCalls_induction (P := fun s => s.blocks.lookup (blockTag c (fingerprintOf c pk) hint) = some owner)
      hstored ?_
  . simp [hlookup]
  . intro ev hev hbefore
    have hnot := hkept ev hev
    have hknown := hhashed ev (List.mem_append_right _ hev)
    obtain ⟨call, s, rfl⟩ := exists_event hev
    rw [before_event] at hbefore
    exact lookup_event_of_not_removes hinj hknown hmem hnot hbefore

end Run

/--
A blocked sender is refused exactly when the recipient is spelled the way fingerprints are, and the sender
the way it was when the block was added, or in a way that has been blocked as well.
-/
theorem rejects_iff_spelling {c : Crypto} {v : DeviceSignatures} {known : Set (List UInt8)}
    (hinj : Set.InjOn c.sha256 known) {calls : List BlockCall} {faults : List Bool} {userId fp hint : String}
    (hhashed : ∀ ev ∈ events c v calls { faults }, ∀ bytes ∈ ev.hashed c, bytes ∈ known)
    (hblocked : HasBlocked c v faults calls userId fp hint) {envelope : PhantomEnvelope}
    (hvalid : validateEnvelope envelope = .ok ())
    (hsame : hexDecode envelope.recipientFp = hexDecode fp)
    (hmem : utf8 envelope.recipientFp ++ utf8 envelope.senderHint ∈ known)
    : (afterCalls c v calls { faults }).Rejects c envelope
        ↔ envelope.recipientFp = fp
          ∧ (envelope.senderHint = hint
            ∨ (afterCalls c v calls { faults }).blocks.lookup (blockTag c fp envelope.senderHint) ≠ none) := by
  obtain ⟨⟨pk, rfl⟩, hthere⟩ := hblocked.refused hinj hhashed
  rw [rejects_iff_refuses hvalid, PhantomTables.refuses, Option.isSome_iff_ne_none]
  constructor
  . intro hrefused
    obtain ⟨owner, hlookup⟩ := Option.ne_none_iff_exists'.1 hrefused
    obtain ⟨pk', hint', htag, hmem'⟩ := tagged_of_run hhashed _ _ hlookup
    have hlen : Text.len envelope.recipientFp = Text.len (fingerprintOf c pk') := by
      rw [len_fingerprintOf, len_of_validateEnvelope hvalid]
    obtain ⟨hfp, -⟩ := blockTag_inj hinj hlen hmem hmem' htag
    have hbytes : fingerprintOf c pk' = fingerprintOf c pk := by
      rw [hfp, fingerprintOf, fingerprintOf, hexDecode_hexEncode, hexDecode_hexEncode] at hsame
      obtain hdigest := Option.some.inj (Except.ok.inj hsame)
      rw [fingerprintOf, fingerprintOf, hdigest]
    have hspelled := hfp.trans hbytes
    exact ⟨hspelled, .inr (hspelled ▸ hrefused)⟩
  . rintro ⟨hfp, rfl | hother⟩
    . rwa [hfp]
    . rwa [hfp]

section Examples

/--
A digest that adds up the bytes of each of its positions.
-/
def Crypto.folded : Crypto :=
  { Crypto.simple with
    sha256 := fun bytes => .ofFn fun i =>
      (bytes[i.val]?).getD 0 + (bytes[i.val + 32]?).getD 0 + (bytes[i.val + 64]?).getD 0
        + (bytes[i.val + 96]?).getD 0 }

def bobBlocksOnes : List BlockCall := twoPrekeys "bb" "aa" ++ [.update "bob" [hintOnes] []]

def foldedFp : String := fingerprintOf .folded [0xbb]

def capitalFp : String := "BB00000000000000000000000000000000000000000000000000000000000000"

def envelopeFromOnes (recipientFp : String) : PhantomEnvelope :=
  { pv := 1, slotId := hintOnes, recipientFp, senderHint := hintOnes, bucket := 4096, ct := "QUJD" }

def openGates : Gates := { depositTokens := AList.insert (depositTokenOf .folded "0" 1) 1 ∅ }

def openGate : PhantomGate where
  mode := .pass
  token := depositTokenOf .folded "0" 1
  nullifier := computeNullifier .folded "t" 0 (depositAction 0)
  quotaToken := some { epoch := 0, ticket := "t", signature := signTicket .folded "0:t" }

def isAccepted {α : Type} : EStateM.Result ApiError Gates α → Bool
  | .ok _ _ => true
  | .error _ _ => false

theorem events_bobBlocksOnes : ∃ pre,
    events .folded .simple bobBlocksOnes {}
        = pre ++ [(BlockCall.update "bob" [hintOnes] []).event .folded .simple
          { prekeys := (AList.insert "bob" (signedBundle "b0" "bb") ∅).insert "mallory"
              (signedBundle "a0" "aa") }]
      ∧ ∀ ev ∈ pre, ev.hashed .folded = [] := by
  refine ⟨events .folded .simple (twoPrekeys "bb" "aa") {}, ?_, ?_⟩
  . rw [bobBlocksOnes, events_append, afterCalls_twoPrekeys]
    rfl
  . intro ev hev
    simp only [twoPrekeys, events, List.mem_cons, List.not_mem_nil, or_false] at hev
    obtain rfl | rfl := hev <;> rfl

theorem hashed_bobBlocksOnes
    : ∀ ev ∈ events .folded .simple bobBlocksOnes {}, ∀ bytes ∈ ev.hashed .folded,
        bytes = utf8 foldedFp ++ utf8 hintOnes := by
  obtain ⟨pre, hevents, hpre⟩ := events_bobBlocksOnes
  rw [hevents]
  intro ev hev bytes hmem
  obtain hev | hev := List.mem_append.1 hev
  . rw [hpre ev hev] at hmem
    exact absurd hmem List.not_mem_nil
  . obtain rfl := List.mem_singleton.1 hev
    revert bytes
    decide +kernel

theorem hasBlocked_bobBlocksOnes : HasBlocked .folded .simple [] bobBlocksOnes "bob" foldedFp hintOnes := by
  refine ⟨twoPrekeys "bb" "aa", [hintOnes], [], [], "bob", rfl, ?_, .head _, ?_, ?_⟩
  . rw [afterCalls_twoPrekeys]
    decide +kernel
  . rw [afterCalls_append, afterCalls_twoPrekeys]
    decide +kernel
  . exact fun _ h => absurd h List.not_mem_nil

theorem injOn_folded
    : Set.InjOn Crypto.folded.sha256
        {utf8 foldedFp ++ utf8 hintOnes, utf8 capitalFp ++ utf8 hintOnes} := by
  have hne : Crypto.folded.sha256 (utf8 foldedFp ++ utf8 hintOnes)
      ≠ Crypto.folded.sha256 (utf8 capitalFp ++ utf8 hintOnes) := by
    intro h
    have hfirst := congrArg (·[0]) h
    revert hfirst
    decide +kernel
  exact Set.injOn_pair.2 fun h => absurd h hne

end Examples

theorem rejects_iff_spelling_bobBlocksOnes
    : (afterCalls .folded .simple bobBlocksOnes {}).Rejects .folded (envelopeFromOnes foldedFp)
        ↔ foldedFp = foldedFp
          ∧ (hintOnes = hintOnes
            ∨ (afterCalls .folded .simple bobBlocksOnes {}).blocks.lookup (blockTag .folded foldedFp hintOnes)
              ≠ none) :=
  rejects_iff_spelling injOn_folded (fun ev hev bytes hmem => .inl (hashed_bobBlocksOnes ev hev bytes hmem))
    hasBlocked_bobBlocksOnes (show validateEnvelope (envelopeFromOnes foldedFp) = .ok () by decide +kernel)
    rfl (.inl rfl)

/--
The sender that Bob has blocked gets through to him by writing his fingerprint in capital letters.
-/
theorem not_rejects_capitals
    : Set.InjOn Crypto.folded.sha256
          {utf8 foldedFp ++ utf8 hintOnes, utf8 capitalFp ++ utf8 hintOnes}
        ∧ HasBlocked .folded .simple [] bobBlocksOnes "bob" foldedFp hintOnes
        ∧ validateEnvelope (envelopeFromOnes capitalFp) = .ok ()
        ∧ hexDecode capitalFp = hexDecode foldedFp
        ∧ isAccepted (deposit .folded (afterCalls .folded .simple bobBlocksOnes {}).answer
            ⟨0, 0, 0, 0, 0, 0, .insertion⟩ ⟨envelopeFromOnes capitalFp, openGate⟩ openGates) = true := by
  refine ⟨injOn_folded, hasBlocked_bobBlocksOnes, by decide +kernel, by decide +kernel, ?_⟩
  rw [bobBlocksOnes, afterCalls_append, afterCalls_twoPrekeys]
  decide +kernel

end Lqxp
