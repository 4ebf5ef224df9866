import Lqxp.Core.Digests
import Lqxp.Services.Phantom.Tags

/-!
This module contains runs of publications and of updates of blocks, and what they mean for the deposits to
one recipient: whose calls have a say in it, and which spellings of a blocked pair are refused.
-/

namespace Lqxp

open Tabled

inductive BlockCall where
  | publish (userId : String) (bundle : PrekeyBundle)
  | update (userId : String) (add remove : List String)

def BlockCall.userId : BlockCall → String
  | .publish userId _ => userId
  | .update userId _ _ => userId

/--
One call of a run, with the tables before and after it.
-/
structure BlockEvent where
  call : BlockCall
  before : PhantomTables
  after : PhantomTables
  succeeded : Bool

variable (c : Crypto) (v : DeviceSignatures)

def BlockCall.event (call : BlockCall) (s : PhantomTables) : BlockEvent :=
  match call with
  | .publish userId bundle =>
    let res := publishPrekey v userId bundle s
    { call, before := s, after := final res, succeeded := succeeds res }
  | .update userId add remove =>
    let res := updateBlocks c userId add remove s
    { call, before := s, after := final res, succeeded := succeeds res }

def events : List BlockCall → PhantomTables → List BlockEvent
  | [], _ => []
  | call :: calls, s => call.event c v s :: events calls (call.event c v s).after

def afterCalls : List BlockCall → PhantomTables → PhantomTables
  | [], s => s
  | call :: calls, s => afterCalls calls (call.event c v s).after

section Runs

variable {c : Crypto} {v : DeviceSignatures} {calls : List BlockCall} {s : PhantomTables}
  {P : PhantomTables → Prop}

theorem events_append (calls calls' : List BlockCall) (s : PhantomTables)
    : events c v (calls ++ calls') s = events c v calls s ++ events c v calls' (afterCalls c v calls s) := by
  induction calls generalizing s with
  | nil => rfl
  | cons call calls ih => rw [List.cons_append, events, events, afterCalls, ih, List.cons_append]

@[simp]
theorem call_event (call : BlockCall) (s : PhantomTables) : (call.event c v s).call = call := by
  cases call <;> rfl

@[simp]
theorem before_event (call : BlockCall) (s : PhantomTables) : (call.event c v s).before = s := by
  cases call <;> rfl

theorem afterCalls_induction (hstart : P s) (hstep : ∀ ev ∈ events c v calls s, P ev.before → P ev.after)
    : P (afterCalls c v calls s) := by
  induction calls generalizing s with
  | nil => exact hstart
  | cons call calls ih =>
    exact ih (hstep _ (.head _) (by simpa using hstart)) fun ev hmem => hstep ev (.tail _ hmem)

theorem before_induction (hstart : P s) (hstep : ∀ ev ∈ events c v calls s, P ev.before → P ev.after)
    : ∀ ev ∈ events c v calls s, P ev.before := by
  induction calls generalizing s with
  | nil => exact fun _ hmem => absurd hmem List.not_mem_nil
  | cons call calls ih =>
    intro ev hmem
    have hhead : P (call.event c v s).before := by simpa using hstart
    obtain rfl | hmem := List.mem_cons.1 hmem
    . exact hhead
    . exact ih (hstep _ (.head _) hhead) (fun ev hmem => hstep ev (.tail _ hmem)) ev hmem

theorem exists_event {ev : BlockEvent} (hmem : ev ∈ events c v calls s)
    : ∃ (call : BlockCall) (s : PhantomTables), ev = call.event c v s := by
  induction calls generalizing s with
  | nil => exact absurd hmem List.not_mem_nil
  | cons call calls ih =>
    obtain rfl | hmem := List.mem_cons.1 hmem
    . exact ⟨call, s, rfl⟩
    . exact ih hmem

end Runs

section Tags

/--
The account has stored the tag, where there was no row.
-/
def BlockEvent.Stores (ev : BlockEvent) (userId fp hint : String) : Prop :=
  ∃ add remove, ev.call = .update userId add remove ∧ ev.before.publishedFp c userId = some fp
    ∧ hint ∈ add ∧ ev.before.blocks.lookup (blockTag c fp hint) = none
    ∧ ev.after.blocks.lookup (blockTag c fp hint) = some userId
    ∧ ev.before.blockCount userId < maxBlocksPerAccount

/--
The account has asked for the removal of a hint, with a key of this fingerprint.
-/
def BlockEvent.Removes (ev : BlockEvent) (userId fp hint : String) : Prop :=
  ∃ add remove, ev.call = .update userId add remove ∧ ev.before.publishedFp c userId = some fp
    ∧ hint ∈ remove

def BlockEvent.hashed (ev : BlockEvent) : List (List UInt8) :=
  match ev.call with
  | .publish _ _ => []
  | .update userId add remove =>
    match ev.before.publishedFp c userId with
    | none => []
    | some fp => (add ++ remove).map fun hint => utf8 fp ++ utf8 hint

variable {c : Crypto} {v : DeviceSignatures}

theorem sameRows_publishPrekey (userId : String) (bundle : PrekeyBundle) (s : PhantomTables)
    : (final (publishPrekey v userId bundle s)).blocks = s.blocks := by
  rw [publishPrekey, bind_run]
  cases verifyPrekeyBundle v bundle with
  | error err => rfl
  | ok u =>
    obtain ⟨s₁, hsame, h | h⟩ := tableStatement_cases
      (fun s => ((), { s with prekeys := s.prekeys.insert userId bundle })) s
    all_goals
      change (final ((storePrekey userId bundle >>= fun _ => pure bundle.version) s)).blocks = _
      rw [bind_run, storePrekey, h]
      exact hsame.blocks

theorem BlockCall.lookup_cases (call : BlockCall) (s : PhantomTables) (tag : String)
    : (call.event c v s).after.blocks.lookup tag = s.blocks.lookup tag
        ∨ ∃ userId fp hint, tag = blockTag c fp hint
          ∧ ((call.event c v s).Stores c userId fp hint
            ∨ (call.event c v s).Removes c userId fp hint ∧ s.blocks.lookup tag = some userId
              ∧ (call.event c v s).after.blocks.lookup tag = none) := by
  cases call with
  | publish userId bundle =>
    left
    rw [BlockCall.event, sameRows_publishPrekey]
  | update userId add remove =>
    obtain ⟨hsame, -⟩ | ⟨fp, s₁, hfp, hadded, hremoved, -⟩ := updateBlocks_cases c userId add remove s
    . left
      rw [BlockCall.event, hsame.blocks]
    . obtain hremoved | ⟨hmem', hown, hgone⟩ := hremoved.blocks tag
      . obtain hadded | ⟨hmem, hnone, hsome, hquota⟩ := hadded.blocks tag
        . left
          rw [BlockCall.event, hremoved, hadded]
        . obtain ⟨hint, hhint, rfl⟩ := List.mem_map.1 hmem
          exact .inr ⟨userId, fp, hint, rfl,
            .inl ⟨add, remove, rfl, hfp, hhint, hnone, hremoved.trans hsome, hquota⟩⟩
      . obtain ⟨hint, hhint, rfl⟩ := List.mem_map.1 hmem'
        obtain hadded | ⟨-, hnone, -⟩ := hadded.blocks (blockTag c fp hint)
        . exact .inr ⟨userId, fp, hint, rfl,
            .inr ⟨⟨add, remove, rfl, hfp, hhint⟩, hadded ▸ hown, hgone⟩⟩
        . left
          rw [BlockCall.event, hgone, hnone]

end Tags

section Owner

variable {c : Crypto} {v : DeviceSignatures} {known : Set (List UInt8)}

theorem len_fingerprintOf (c : Crypto) (pk : List UInt8) : Text.len (fingerprintOf c pk) = 64 := by
  rw [fingerprintOf, len_hexEncode]
  simp

theorem exists_fingerprintOf {s : PhantomTables} {userId fp : String}
    (h : s.publishedFp c userId = some fp) : ∃ pk, fp = fingerprintOf c pk := by
  obtain ⟨bundle, -, hfp⟩ := Option.bind_eq_some_iff.1 h
  rw [fingerprintOfMlkemHex] at hfp
  cases hdecode : hexDecode bundle.mlkem768Pk with
  | error panic => simp [hdecode, Except.map] at hfp
  | ok decoded =>
    rw [hdecode] at hfp
    obtain ⟨pk, -, rfl⟩ := Option.map_eq_some_iff.1 hfp
    exact ⟨pk, rfl⟩

theorem blockTag_inj (hinj : Set.InjOn c.sha256 known) {fp fp' hint hint' : String}
    (hlen : Text.len fp = Text.len fp') (hmem : utf8 fp ++ utf8 hint ∈ known)
    (hmem' : utf8 fp' ++ utf8 hint' ∈ known) (h : blockTag c fp hint = blockTag c fp' hint')
    : fp = fp' ∧ hint = hint' :=
  utf8_append_inj hlen (hinj hmem hmem' (Vector.toList_inj.1 (hexEncode_injective h)))

theorem mem_hashed_of_stores {ev : BlockEvent} {userId fp hint : String} (h : ev.Stores c userId fp hint)
    : utf8 fp ++ utf8 hint ∈ ev.hashed c := by
  obtain ⟨add, remove, hcall, hfp, hmem, -⟩ := h
  rw [BlockEvent.hashed, hcall]
  simp only [hfp]
  exact List.mem_map.2 ⟨hint, List.mem_append_left _ hmem, rfl⟩

theorem mem_hashed_of_removes {ev : BlockEvent} {userId fp hint : String} (h : ev.Removes c userId fp hint)
    : utf8 fp ++ utf8 hint ∈ ev.hashed c := by
  obtain ⟨add, remove, hcall, hfp, hmem⟩ := h
  rw [BlockEvent.hashed, hcall]
  simp only [hfp]
  exact List.mem_map.2 ⟨hint, List.mem_append_right _ hmem, rfl⟩

/--
Whether the block check of a deposit refuses an envelope.
-/
def PhantomTables.refuses (c : Crypto) (s : PhantomTables) (envelope : PhantomEnvelope) : Bool :=
  (s.blocks.lookup (blockTag c envelope.recipientFp envelope.senderHint)).isSome

/--
The call leaves the blocks of the fingerprint to the account that it belongs to: another account updates
its blocks under a key of its own, or has no room for them, or adds none that was not there. And what the
account itself removes, it removes with the key of this fingerprint, if there was something to remove.
-/
def BlockEvent.KeepsToOwnKey (c : Crypto) (ev : BlockEvent) (userId fp : String) : Prop :=
  match ev.call with
  | .publish _ _ => True
  | .update other add remove =>
    if other = userId then
      ∀ hint ∈ remove, ev.before.publishedFp c userId = some fp
        ∨ ev.before.blocks.lookup (blockTag c fp hint) = none
    else
      ev.before.publishedFp c other ≠ some fp
        ∨ maxBlocksPerAccount ≤ ev.before.blockCount other
        ∨ ∀ hint ∈ add, ev.before.blocks.lookup (blockTag c fp hint) ≠ none

/--
All blocks of the fingerprint have been stored by one account.
-/
def OwnedBlocks (c : Crypto) (known : Set (List UInt8)) (userId fp : String) (s : PhantomTables) : Prop :=
  ∀ hint owner, utf8 fp ++ utf8 hint ∈ known →
    s.blocks.lookup (blockTag c fp hint) = some owner → owner = userId

variable {pk : List UInt8} {userId hint : String} {call : BlockCall} {s : PhantomTables}

theorem BlockCall.block_cases (hinj : Set.InjOn c.sha256 known)
    (hhashed : ∀ bytes ∈ (call.event c v s).hashed c, bytes ∈ known)
    (hmem : utf8 (fingerprintOf c pk) ++ utf8 hint ∈ known)
    : (call.event c v s).after.blocks.lookup (blockTag c (fingerprintOf c pk) hint)
          = s.blocks.lookup (blockTag c (fingerprintOf c pk) hint)
        ∨ ∃ other, (call.event c v s).Stores c other (fingerprintOf c pk) hint
          ∨ (call.event c v s).Removes c other (fingerprintOf c pk) hint
            ∧ s.blocks.lookup (blockTag c (fingerprintOf c pk) hint) = some other
            ∧ (call.event c v s).after.blocks.lookup (blockTag c (fingerprintOf c pk) hint) = none := by
  obtain hsame | ⟨other, fp, hint', htag, hchange⟩ :=
    call.lookup_cases (c := c) (v := v) s (blockTag c (fingerprintOf c pk) hint)
  . exact .inl hsame
  . have hfp : (call.event c v s).before.publishedFp c other = some fp := by
      obtain ⟨_, _, -, hfp, -⟩ | ⟨⟨_, _, -, hfp, -⟩, -⟩ := hchange <;> exact hfp
    have hmem' : utf8 fp ++ utf8 hint' ∈ known := by
      obtain hstores | ⟨hremoves, -⟩ := hchange
      . exact hhashed _ (mem_hashed_of_stores hstores)
      . exact hhashed _ (mem_hashed_of_removes hremoves)
    obtain ⟨pk', rfl⟩ := exists_fingerprintOf hfp
    have hlen : Text.len (fingerprintOf c pk) = Text.len (fingerprintOf c pk') := by
      rw [len_fingerprintOf, len_fingerprintOf]
    obtain ⟨hpk, rfl⟩ := blockTag_inj hinj hlen hmem hmem' htag
    rw [hpk]
    rw [hpk] at hchange
    exact .inr ⟨other, hchange⟩

theorem eq_of_stores {ev : BlockEvent} {other fp : String} (hown : ev.KeepsToOwnKey c userId fp)
    (h : ev.Stores c other fp hint) : other = userId := by
  obtain ⟨add, remove, hcall, hfp, hmem, hnone, -, hquota⟩ := h
  rw [BlockEvent.KeepsToOwnKey, hcall] at hown
  dsimp only at hown
  split at hown
  . assumption
  . obtain hkey | hfull | hthere := hown
    . exact absurd hfp hkey
    . omega
    . exact absurd hnone (hthere hint hmem)

theorem ownedBlocks_event (hinj : Set.InjOn c.sha256 known)
    (hhashed : ∀ bytes ∈ (call.event c v s).hashed c, bytes ∈ known)
    (hown : (call.event c v s).KeepsToOwnKey c userId (fingerprintOf c pk))
    (h : OwnedBlocks c known userId (fingerprintOf c pk) s)
    : OwnedBlocks c known userId (fingerprintOf c pk) (call.event c v s).after := by
  intro hint owner hmem hlookup
  obtain hsame | ⟨other, hstores | ⟨-, -, hgone⟩⟩ := call.block_cases (v := v) (s := s) hinj hhashed hmem
  . exact h hint owner hmem (hsame ▸ hlookup)
  . have heq := eq_of_stores hown hstores
    obtain ⟨_, _, -, -, -, -, hsome, -⟩ := hstores
    rw [hsome] at hlookup
    rw [← Option.some.inj hlookup, heq]
  . rw [hgone] at hlookup
    contradiction

/--
An update of the account itself that goes through, removes the hint and does not add it.
-/
def BlockEvent.Lifts (ev : BlockEvent) (userId hint : String) : Prop :=
  ∃ add remove, ev.call = .update userId add remove ∧ ev.succeeded = true ∧ hint ∈ remove ∧ hint ∉ add

theorem refuses_event_of_ne (hinj : Set.InjOn c.sha256 known)
    (hhashed : ∀ bytes ∈ (call.event c v s).hashed c, bytes ∈ known)
    (hown : (call.event c v s).KeepsToOwnKey c userId (fingerprintOf c pk))
    (h : OwnedBlocks c known userId (fingerprintOf c pk) s) (hne : call.userId ≠ userId)
    (hmem : utf8 (fingerprintOf c pk) ++ utf8 hint ∈ known)
    : (call.event c v s).after.blocks.lookup (blockTag c (fingerprintOf c pk) hint)
        = s.blocks.lookup (blockTag c (fingerprintOf c pk) hint) := by
  obtain hsame | ⟨other, hstores | ⟨hremoves, hlookup, -⟩⟩ :=
    call.block_cases (v := v) (s := s) hinj hhashed hmem
  . exact hsame
  . have heq := eq_of_stores hown hstores
    obtain ⟨add, remove, hcall, -⟩ := hstores
    rw [call_event] at hcall
    exact absurd (hcall ▸ heq) hne
  . have heq := h hint other hmem hlookup
    obtain ⟨add, remove, hcall, -⟩ := hremoves
    rw [call_event] at hcall
    exact absurd (hcall ▸ heq) hne

theorem not_blocked_of_lifts (hinj : Set.InjOn c.sha256 known)
    (hhashed : ∀ bytes ∈ (call.event c v s).hashed c, bytes ∈ known)
    (hown : (call.event c v s).KeepsToOwnKey c userId (fingerprintOf c pk))
    (h : OwnedBlocks c known userId (fingerprintOf c pk) s) (hlifts : (call.event c v s).Lifts userId hint)
    (hmem : utf8 (fingerprintOf c pk) ++ utf8 hint ∈ known)
    : (call.event c v s).after.blocks.lookup (blockTag c (fingerprintOf c pk) hint) = none := by
  obtain ⟨add, remove, hcall, hok, hremove, hadd⟩ := hlifts
  rw [call_event] at hcall
  subst hcall
  have howned := ownedBlocks_event hinj hhashed hown h
  rw [BlockEvent.KeepsToOwnKey] at hown
  dsimp only [BlockCall.event] at hown
  rw [if_pos rfl] at hown
  obtain hfp | hnone := hown hint hremove
  . -- the account removes the row, if it is one of its own
    obtain ⟨-, hfails⟩ | ⟨fp, s₁, hfp', -, -, hgone⟩ := updateBlocks_cases c userId add remove s
    . exact absurd (hok.symm.trans hfails) Bool.false_ne_true.symm
    . obtain rfl := Option.some.inj (hfp'.symm.trans hfp)
      have hnot := hgone hok _ (List.mem_map.2 ⟨hint, hremove, rfl⟩)
      refine Option.eq_none_iff_forall_ne_some.2 fun owner hlookup => hnot ?_
      obtain rfl := howned hint owner hmem hlookup
      exact hlookup
  . obtain hsame | ⟨other, hstores | ⟨-, -, hgone⟩⟩ := BlockCall.block_cases (v := v) (s := s) hinj hhashed hmem
    . rw [hsame, hnone]
    . obtain ⟨add', remove', hcall, -, hmem', -⟩ := hstores
      cases hcall
      exact absurd hmem' hadd
    . exact hgone

end Owner

section TwoAccounts

/--
Signatures that spell out the key and the message.
-/
def DeviceSignatures.simple : DeviceSignatures where
  verifyEcdsaP256 jwk msg sig :=
    if sig = jwk.render ++ hexEncode msg then .ok ()
    else .error (.badRequest "Invalid ECDSA signature.")
  verifyMldsa65 pk msg sig :=
    if sig = pk ++ msg then .ok () else .error (.badRequest "Invalid ML-DSA-65 signature.")

/--
A bundle for an ML-KEM key, signed with the keys of a device.
-/
def signedBundle (deviceKey mlkem768Pk : String) : PrekeyBundle :=
  let bundle : PrekeyBundle :=
    { version := 1, mlkem768Pk, ecdsaP256Pk := .str deviceKey, mldsa65Pk := deviceKey, sigEcdsa := "",
      sigMldsa := "", updatedAt := 0 }
  let msg := hexEncode (canonicalPrekeyBundleBytes bundle)
  { bundle with sigEcdsa := bundle.ecdsaP256Pk.render ++ msg, sigMldsa := deviceKey ++ msg }

theorem hexEncode_append (key msg : List UInt8) : hexEncode (key ++ msg) = hexEncode key ++ hexEncode msg := by
  rw [hexEncode, List.flatMap_append, String.ofList_append, ← hexEncode, ← hexEncode]

theorem decodeHex_hexEncode (bytes : List UInt8) (failure : String) : decodeHex (hexEncode bytes) failure = .ok bytes := by
  rw [decodeHex, hexDecode_hexEncode]

theorem verify_signedBundle (key : List UInt8) (mlkem768Pk : String)
    : verifyPrekeyBundle .simple (signedBundle (hexEncode key) mlkem768Pk) = .ok () := by
  simp only [verifyPrekeyBundle, verifyMldsa65, signedBundle, canonicalPrekeyBundleBytes, ← hexEncode_append,
    decodeHex_hexEncode]
  simp [DeviceSignatures.simple, bind, Except.bind]

def twoPrekeys (bobPk malloryPk : String) : List BlockCall :=
  [.publish "bob" (signedBundle "b0" bobPk), .publish "mallory" (signedBundle "a0" malloryPk)]

theorem afterCalls_twoPrekeys (c : Crypto) (bobPk malloryPk : String)
    : afterCalls c .simple (twoPrekeys bobPk malloryPk) {}
        = { prekeys := (AList.insert "bob" (signedBundle "b0" bobPk) ∅).insert "mallory"
              (signedBundle "a0" malloryPk) } := by
  have hbob : verifyPrekeyBundle .simple (signedBundle "b0" bobPk) = .ok () := verify_signedBundle [0xb0] bobPk
  have hmallory : verifyPrekeyBundle .simple (signedBundle "a0" malloryPk) = .ok () := verify_signedBundle [0xa0] malloryPk
  simp only [twoPrekeys, afterCalls, BlockCall.event, publishPrekey, bind_run, hbob, hmallory]
  rfl

def hintOnes : String := "1111111111111111111111111111111111111111111111111111111111111111"

def hintTwos : String := "2222222222222222222222222222222222222222222222222222222222222222"

def bobFp : String := fingerprintOf .simple [0xbb]

def envelopeToBob (senderHint : String) : PhantomEnvelope :=
  { pv := 1, slotId := hintOnes, recipientFp := bobFp, senderHint, bucket := 4096, ct := "QUJD" }

end TwoAccounts

/--
As long as all calls keep to their own keys, who may send to a fingerprint is up to its owner alone: the
calls of other accounts change nothing, and a hint that the owner removes is refused no longer.
-/
theorem refusals_of_ownKeys {c : Crypto} {v : DeviceSignatures} {known : Set (List UInt8)}
    (hinj : Set.InjOn c.sha256 known) (pk : List UInt8) (userId : String) (calls : List BlockCall)
    (faults : List Bool)
    (hhashed : ∀ ev ∈ events c v calls { faults }, ∀ bytes ∈ ev.hashed c, bytes ∈ known)
    (hown : ∀ ev ∈ events c v calls { faults }, ev.KeepsToOwnKey c userId (fingerprintOf c pk))
    : ∀ ev ∈ events c v calls { faults }, ∀ envelope : PhantomEnvelope,
        envelope.recipientFp = fingerprintOf c pk →
        utf8 envelope.recipientFp ++ utf8 envelope.senderHint ∈ known →
          (ev.call.userId ≠ userId → ev.after.refuses c envelope = ev.before.refuses c envelope)
            ∧ (ev.Lifts userId envelope.senderHint → ev.after.refuses c envelope = false) := by
  intro ev hev envelope hfp hmem
  have howned : OwnedBlocks c known userId (fingerprintOf c pk) ev.before := by
    refine before_induction (fun hint owner _ h => ?_) (fun ev hev h => ?_) ev hev
    . simp at h
    . obtain ⟨call, s, rfl⟩ := exists_event hev
      rw [before_event] at h
      exact ownedBlocks_event hinj (hhashed _ hev) (hown _ hev) h
  obtain ⟨call, s, rfl⟩ := exists_event hev
  rw [before_event] at howned
  rw [hfp] at hmem
  rw [PhantomTables.refuses, PhantomTables.refuses, hfp, before_event, call_event]
  refine ⟨fun hne => ?_, fun hlifts => ?_⟩
  . rw [refuses_event_of_ne hinj (hhashed _ hev) (hown _ hev) howned hne hmem]
  . rw [not_blocked_of_lifts hinj (hhashed _ hev) (hown _ hev) howned hlifts hmem]
    rfl

/--
Mallory and Bob block a sender each, and Bob takes it back.
-/
def honestCalls : List BlockCall :=
  twoPrekeys "bb" "aa" ++
    [.update "mallory" [hintTwos] [], .update "bob" [hintOnes] [], .update "bob" [] [hintOnes]]

theorem refusals_of_ownKeys_honestCalls
    : (events .simple .simple honestCalls {}).length = 5
        ∧ ∀ ev ∈ events .simple .simple honestCalls {}, ∀ envelope : PhantomEnvelope,
          envelope.recipientFp = fingerprintOf .simple [0xbb] →
          utf8 envelope.recipientFp ++ utf8 envelope.senderHint
              ∈ ({utf8 bobFp ++ utf8 hintOnes, utf8 (fingerprintOf .simple [0xaa]) ++ utf8 hintTwos} : Set _) →
            (ev.call.userId ≠ "bob" →
                ev.after.refuses .simple envelope = ev.before.refuses .simple envelope)
              ∧ (ev.Lifts "bob" envelope.senderHint → ev.after.refuses .simple envelope = false) := by
  have hevents : events .simple .simple honestCalls {}
      = events .simple .simple (twoPrekeys "bb" "aa") {}
        ++ events .simple .simple
          [.update "mallory" [hintTwos] [], .update "bob" [hintOnes] [], .update "bob" [] [hintOnes]]
          { prekeys := (AList.insert "bob" (signedBundle "b0" "bb") ∅).insert "mallory"
              (signedBundle "a0" "aa") } := by
    rw [honestCalls, events_append, afterCalls_twoPrekeys]
  refine ⟨by rw [hevents]; rfl, refusals_of_ownKeys ?_ [0xbb] "bob" honestCalls [] ?_ ?_⟩
  . have hne : Crypto.simple.sha256 (utf8 bobFp ++ utf8 hintOnes)
        ≠ Crypto.simple.sha256 (utf8 (fingerprintOf .simple [0xaa]) ++ utf8 hintTwos) := by
      decide +kernel
    exact Set.injOn_pair.2 fun h => absurd h hne
  . rw [hevents]
    intro ev hev bytes hmem
    obtain hev | hev := List.mem_append.1 hev
    . simp only [twoPrekeys, events, List.mem_cons, List.not_mem_nil, or_false] at hev
      obtain rfl | rfl := hev
      all_goals simp [BlockEvent.hashed] at hmem
    . simp only [events, List.mem_cons, List.not_mem_nil, or_false] at hev
      rw [Set.mem_insert_iff, Set.mem_singleton_iff]
      obtain rfl | rfl | rfl := hev
      all_goals
        revert bytes
        decide +kernel
  . rw [hevents]
    intro ev hev
    obtain hev | hev := List.mem_append.1 hev
    . simp only [twoPrekeys, events, List.mem_cons, List.not_mem_nil, or_false] at hev
      obtain rfl | rfl := hev <;> exact trivial
    . simp only [events, List.mem_cons, List.not_mem_nil, or_false] at hev
      obtain rfl | rfl | rfl := hev
      . exact .inl (by decide +kernel)
      . exact fun _ h => absurd h List.not_mem_nil
      . exact fun hint hmem => .inl (by decide +kernel)

/--
Mallory publishes Bob's key under her own signatures, and blocks a sender under its fingerprint. Bob
cannot take that back.
-/
def impostorCalls : List BlockCall :=
  twoPrekeys "bb" "bb" ++ [.update "mallory" [hintOnes] [], .update "bob" [] [hintOnes]]

theorem not_refusals_of_owner
    : Set.InjOn Crypto.simple.sha256 {utf8 bobFp ++ utf8 hintOnes}
        ∧ (∀ ev ∈ events .simple .simple impostorCalls {}, ∀ bytes ∈ ev.hashed .simple,
          bytes = utf8 bobFp ++ utf8 hintOnes)
        ∧ ¬ (∀ ev ∈ events .simple .simple impostorCalls {}, ev.call.userId ≠ "bob" →
          ev.after.refuses .simple (envelopeToBob hintOnes)
            = ev.before.refuses .simple (envelopeToBob hintOnes))
        ∧ ¬ (∀ ev ∈ events .simple .simple impostorCalls {}, ev.Lifts "bob" hintOnes →
          ev.after.refuses .simple (envelopeToBob hintOnes) = false) := by
  have hevents : events .simple .simple impostorCalls {}
      = events .simple .simple (twoPrekeys "bb" "bb") {}
        ++ events .simple .simple [.update "mallory" [hintOnes] [], .update "bob" [] [hintOnes]]
          { prekeys := (AList.insert "bob" (signedBundle "b0" "bb") ∅).insert "mallory"
              (signedBundle "a0" "bb") } := by
    rw [impostorCalls, events_append, afterCalls_twoPrekeys]
  rw [hevents]
  refine ⟨Set.injOn_singleton _ _, fun ev hev bytes hmem => ?_, fun h => ?_, fun h => ?_⟩
  . obtain hev | hev := List.mem_append.1 hev
    . simp only [twoPrekeys, events, List.mem_cons, List.not_mem_nil, or_false] at hev
      obtain rfl | rfl := hev
      all_goals simp [BlockEvent.hashed] at hmem
    . simp only [events, List.mem_cons, List.not_mem_nil, or_false] at hev
      obtain rfl | rfl := hev
      all_goals
        revert bytes
        decide +kernel
  . have := h _ (List.mem_append_right _ (.head _)) (by decide)
    revert this
    decide +kernel
  . have := h _ (List.mem_append_right _ (.tail _ (.head _)))
      ⟨[], [hintOnes], rfl, by decide +kernel, .head _, List.not_mem_nil⟩
    revert this
    decide +kernel

end Lqxp
