import Lqxp.Gates.Tokens

/-!
This module contains which challenges can be redeemed: the text that is signed has colons between its fields, and
the scope in it may have some of its own.
-/

namespace Text

theorem count_join (sep : Char) {fields : List String} (hne : fields ≠ [])
    : (join sep fields).toList.count sep + 1 = (fields.map fun field => field.toList.count sep + 1).sum := by
  induction fields with
  | nil => contradiction
  | cons field fields ih =>
    cases fields with
    | nil => simp
    | cons field' fields =>
      have hrest := ih (List.cons_ne_nil _ _)
      rw [toList_join_cons, List.count_append, List.count_cons_self, List.map_cons, List.sum_cons, ← hrest]
      omega

end Text

namespace Lqxp

variable {c : Crypto} {challenge challenge' : CapChallenge}

def CapChallenge.tuple (challenge : CapChallenge) : String × String × Nat × Nat × String × String :=
  (challenge.challengeId, challenge.scope, challenge.issuedAt, challenge.expiresAt, challenge.vdf.signature,
    challenge.pqcKey.keyId)

/--
No field of the tuple has a colon, the scope apart.
-/
structure CapChallenge.NoColons (challenge : CapChallenge) : Prop where
  challengeId : ':' ∉ challenge.challengeId.toList
  vdfSignature : ':' ∉ challenge.vdf.signature.toList
  keyId : ':' ∉ challenge.pqcKey.keyId.toList

/--
The checks of a redemption up to the one of the signature.
-/
structure CapRedeemRequest.Passes (c : Crypto) (e : RedeemEnv) (req : CapRedeemRequest) : Prop where
  challengeId : req.challengeId = req.challenge.challengeId
  expiresAt : e.now ≤ req.challenge.expiresAt
  scope : req.challenge.scope = req.scope
  signature : req.challenge.signatureValid c = true

/--
The signatures in an answer that are made with the secret of the challenges. The one of a token is its last part.
-/
def GateAnswer.signatures : GateAnswer → List String
  | .challenge challenge => [challenge.signature]
  | .redeemed response => (Text.splitOn '.' response.capToken).getLast?.toList
  | _ => []

/--
Clients do not know the secret: a signature that a redemption accepts has been in an answer before.
-/
def Unforged (c : Crypto) (log : GateLog) : Prop :=
  ∀ before e req answer after, log = before ++ (.redeem e req, answer) :: after →
    req.challenge.signatureValid c = true →
    ∃ call reply, (call, .ok reply) ∈ before ∧ req.challenge.signature ∈ reply.signatures

/--
Whatever passes the check of the signature has been issued.
-/
def RedeemsIssued (c : Crypto) (log : GateLog) : Prop :=
  ∀ before e req answer after, log = before ++ (.redeem e req, answer) :: after → req.Passes c e →
    ∃ challenge ∈ issuedIn before, challenge.tuple = req.challenge.tuple

section Texts

theorem tuple_eq_of_text (hplain : challenge.NoColons) (hplain' : challenge'.NoColons)
    (h : challenge.text = challenge'.text) : challenge.tuple = challenge'.tuple := by
  have hnumber (n : Nat) : ':' ∉ (toString n).toList := Text.not_mem_toString (by decide) n
  rw [CapChallenge.text, CapChallenge.text, challengeText, challengeText] at h
  obtain ⟨hid, h⟩ := Text.join_cons_inj (List.cons_ne_nil _ _) (List.cons_ne_nil _ _) hplain.challengeId
    hplain'.challengeId h
  obtain ⟨h, hkey⟩ := Text.join_concat_inj [_, _, _, _] [_, _, _, _] (List.cons_ne_nil _ _) (List.cons_ne_nil _ _)
    hplain.keyId hplain'.keyId h
  obtain ⟨h, hvdf⟩ := Text.join_concat_inj [_, _, _] [_, _, _] (List.cons_ne_nil _ _) (List.cons_ne_nil _ _)
    hplain.vdfSignature hplain'.vdfSignature h
  obtain ⟨h, hexpires⟩ := Text.join_concat_inj [_, _] [_, _] (List.cons_ne_nil _ _) (List.cons_ne_nil _ _)
    (hnumber _) (hnumber _) h
  obtain ⟨h, hissued⟩ := Text.join_concat_inj [_] [_] (List.cons_ne_nil _ _) (List.cons_ne_nil _ _)
    (hnumber _) (hnumber _) h
  have hscope := congrArg String.toList h
  rw [Text.toList_join_singleton, Text.toList_join_singleton] at hscope
  rw [CapChallenge.tuple, CapChallenge.tuple, hid, hkey, hvdf, Text.toString_inj hexpires, Text.toString_inj hissued,
    String.toList_inj.1 hscope]

theorem text_eq_of_tuple (h : challenge.tuple = challenge'.tuple) : challenge.text = challenge'.text := by
  simp only [CapChallenge.tuple, Prod.mk.injEq] at h
  obtain ⟨hid, hscope, hissued, hexpires, hvdf, hkey⟩ := h
  rw [CapChallenge.text, CapChallenge.text, hid, hscope, hissued, hexpires, hvdf, hkey]

theorem count_toString (n : Nat) : (toString n).toList.count ':' = 0 :=
  List.count_eq_zero.2 (Text.not_mem_toString (by decide) n)

theorem count_text (challenge : CapChallenge)
    : challenge.text.toList.count ':'
        = challenge.challengeId.toList.count ':' + challenge.scope.toList.count ':'
          + challenge.vdf.signature.toList.count ':' + challenge.pqcKey.keyId.toList.count ':' + 5 := by
  have hcount := Text.count_join ':' (List.cons_ne_nil challenge.challengeId [challenge.scope,
    toString challenge.issuedAt, toString challenge.expiresAt, challenge.vdf.signature, challenge.pqcKey.keyId])
  simp only [List.map_cons, List.map_nil, List.sum_cons, List.sum_nil, count_toString] at hcount
  rw [CapChallenge.text, challengeText]
  omega

theorem count_tokenText (tokenId scope : String) (expiresAt : Nat)
    : (tokenText tokenId scope expiresAt).toList.count ':'
        = tokenId.toList.count ':' + scope.toList.count ':' + 2 := by
  have hcount := Text.count_join ':' (List.cons_ne_nil tokenId [scope, toString expiresAt])
  simp only [List.map_cons, List.map_nil, List.sum_cons, List.sum_nil, count_toString] at hcount
  rw [tokenText]
  omega

theorem noColons_of_count (h : challenge.text.toList.count ':' = 5) : challenge.NoColons := by
  rw [count_text] at h
  constructor
  . exact List.count_eq_zero.1 (by omega)
  . exact List.count_eq_zero.1 (by omega)
  . exact List.count_eq_zero.1 (by omega)

theorem noColons_challengeOf (e : ChallengeEnv) (scope : String) (target : Option String)
    : (challengeOf (c := c) e scope target).NoColons where
  challengeId := Text.not_mem_hexDigits (by decide) _
  vdfSignature := c.vdfMac.not_mem_sign (by decide) _
  keyId := Text.not_mem_hexDigits (by decide) _

theorem count_challengeOf (e : ChallengeEnv) {scope : String} (target : Option String) (h : ':' ∉ scope.toList)
    : (challengeOf (c := c) e scope target).text.toList.count ':' = 5 := by
  have hplain : (challengeOf (c := c) e scope target).NoColons := noColons_challengeOf e scope target
  rw [count_text, List.count_eq_zero.2 hplain.challengeId, List.count_eq_zero.2 hplain.vdfSignature,
    List.count_eq_zero.2 hplain.keyId, List.count_eq_zero.2 (show ':' ∉ (challengeOf e scope target).scope.toList from h)]

end Texts

section Signatures

theorem sign_text_of_valid (h : challenge.signatureValid c = true) : c.capMac.sign challenge.text = challenge.signature :=
  of_decide_eq_true h

theorem sign_text_of_issued {calls : List GateCall} {s : Gates}
    (h : challenge ∈ issuedIn (Calls.play (GateCall.run c) calls s).1)
    : c.capMac.sign challenge.text = challenge.signature := by
  obtain ⟨e, scope, target, -, rfl⟩ := exists_of_play_challenge h
  rfl

/--
A challenge that passes the check of its signature has been issued exactly if its fields have no colons of their own
and its signature is that of an issued challenge.
-/
theorem exists_issued_iff {calls : List GateCall} {s : Gates} (hvalid : challenge'.signatureValid c = true)
    : (∃ challenge ∈ issuedIn (Calls.play (GateCall.run c) calls s).1, challenge.tuple = challenge'.tuple)
        ↔ challenge'.NoColons
          ∧ ∃ challenge ∈ issuedIn (Calls.play (GateCall.run c) calls s).1,
            challenge.signature = challenge'.signature := by
  have hsigned := sign_text_of_valid hvalid
  constructor
  . rintro ⟨challenge, hissued, htuple⟩
    refine ⟨?_, challenge, hissued, ?_⟩
    . obtain ⟨e, scope, target, -, rfl⟩ := exists_of_play_challenge hissued
      have hplain : (challengeOf (c := c) e scope target).NoColons := noColons_challengeOf e scope target
      simp only [CapChallenge.tuple, Prod.mk.injEq] at htuple
      obtain ⟨hid, -, -, -, hvdf, hkey⟩ := htuple
      exact ⟨hid ▸ hplain.challengeId, hvdf ▸ hplain.vdfSignature, hkey ▸ hplain.keyId⟩
    . rw [← sign_text_of_issued hissued, ← hsigned, text_eq_of_tuple htuple]
  . rintro ⟨hplain', challenge, hissued, hsignature⟩
    refine ⟨challenge, hissued, ?_⟩
    have htext : challenge.text = challenge'.text := by
      rw [← c.capMac.sign_inj, hsigned, sign_text_of_issued hissued, hsignature]
    obtain ⟨e, scope, target, -, rfl⟩ := exists_of_play_challenge hissued
    exact tuple_eq_of_text (noColons_challengeOf e scope target) hplain' htext

theorem exists_of_run_redeemed {call : GateCall} {response : CapRedeemResponse} {s : Gates}
    (h : (call.run c s).1 = .ok (.redeemed response))
    : ∃ e req, call = .redeem e req ∧ response.capToken = mintedToken c e req.scope := by
  cases call with
  | redeem e req => exact ⟨e, req, rfl, capToken_of_run h⟩
  | generate | issueKey | decapsulate | consumeNullifier | consumeVdf | consumeCapToken | issueDeposit
  | consumeDeposit => exact absurd h (outcome_ne_of_forall fun _ ha => nomatch ha)

end Signatures

section Runs

theorem passes_of_run {e : RedeemEnv} {req : CapRedeemRequest} {answer : GateAnswer} {s : Gates}
    (h : (GateCall.run c (.redeem e req) s).1 = .ok answer) : req.Passes c e := by
  rw [GateCall.run, GateCall.handle, outcome_bind_pure, Calls.outcome] at h
  simp only [redeemCapChallenge, refuseIf_bind] at h
  by_cases hid : req.challengeId ≠ req.challenge.challengeId
  . rw [if_pos hid] at h
    contradiction
  rw [if_neg hid] at h
  by_cases hexpired : req.challenge.expiresAt < e.now
  . rw [if_pos hexpired] at h
    contradiction
  rw [if_neg hexpired] at h
  by_cases hscope : req.challenge.scope ≠ req.scope
  . rw [if_pos hscope] at h
    contradiction
  rw [if_neg hscope] at h
  by_cases hsignature : req.challenge.signatureValid c = false
  . rw [if_pos hsignature] at h
    contradiction
  exact ⟨Classical.not_not.1 hid, Nat.le_of_not_lt hexpired, Classical.not_not.1 hscope, by simpa using hsignature⟩

variable {calls : List GateCall}

theorem exists_issued_of_unforged (hscopes : ∀ e scope target, .generate e scope target ∈ calls → ':' ∉ scope.toList)
    (hunforged : Unforged c (Calls.play (GateCall.run c) calls {}).1) {before after : GateLog} {e : RedeemEnv}
    {req : CapRedeemRequest} {answer : ApiResult GateAnswer}
    (hlog : (Calls.play (GateCall.run c) calls {}).1 = before ++ (.redeem e req, answer) :: after)
    (hvalid : req.challenge.signatureValid c = true)
    : ∃ challenge ∈ issuedIn before, challenge.tuple = req.challenge.tuple ∧ ':' ∉ challenge.scope.toList := by
  -- a token in the answers was minted in a redemption before, so the induction is on the length of the log
  induction hn : before.length using Nat.strongRecOn generalizing before after e req answer with
  | ind n ih =>
    have hsigned := sign_text_of_valid hvalid
    obtain ⟨call, reply, hmem, hsignature⟩ := hunforged before e req answer after hlog hvalid
    obtain ⟨-, s', hreply⟩ := Calls.exists_of_mem_play (hlog ▸ List.mem_append_left _ hmem)
    cases reply with
    | challenge challenge =>
      obtain ⟨e', scope, target, rfl, rfl⟩ := exists_of_run_challenge hreply.symm
      have hscope : ':' ∉ scope.toList :=
        hscopes e' scope target (Calls.exists_of_mem_play (hlog ▸ List.mem_append_left _ hmem)).1
      have htext : (challengeOf (c := c) e' scope target).text = req.challenge.text := by
        rw [← c.capMac.sign_inj, hsigned, List.mem_singleton.1 hsignature]
        rfl
      have hplain : req.challenge.NoColons :=
        noColons_of_count (htext ▸ count_challengeOf e' target hscope)
      refine ⟨_, List.mem_filterMap.2 ⟨_, hmem, rfl⟩, ?_, hscope⟩
      exact tuple_eq_of_text (noColons_challengeOf e' scope target) hplain htext
    | redeemed response =>
      obtain ⟨e', req', rfl, htoken⟩ := exists_of_run_redeemed hreply.symm
      rw [GateAnswer.signatures, htoken, splitOn_mintedToken] at hsignature
      have htext : tokenText (Text.hexDigits e'.tokenIdBits.toNat) req'.scope (e'.now + capTokenTtlMs)
          = req.challenge.text := by
        rw [← c.capMac.sign_inj, hsigned]
        exact (List.mem_singleton.1 hsignature).symm
      have hpasses := passes_of_run hreply.symm
      obtain ⟨before₁, before₂, rfl⟩ := List.append_of_mem hmem
      rw [List.append_assoc, List.cons_append] at hlog
      have hshorter : before₁.length < n := by
        rw [← hn, List.length_append, List.length_cons]
        omega
      obtain ⟨challenge, -, htuple, hscope⟩ := ih _ hshorter hlog hpasses.signature rfl
      have hscope' : challenge.scope = req'.scope := by
        simp only [CapChallenge.tuple, Prod.mk.injEq] at htuple
        rw [← hpasses.scope, htuple.2.1]
      -- the text of a token has two colons, that of a challenge five at least
      have hcount := congrArg (fun text => text.toList.count ':') htext
      simp only [count_tokenText, count_text] at hcount
      rw [← hscope', List.count_eq_zero.2 hscope, List.count_eq_zero.2 (Text.not_mem_hexDigits (by decide) _)] at hcount
      omega
    | depositToken token => contradiction
    | done => contradiction

/--
A challenge that passes the checks has been issued exactly if its fields have no colons of their own and its
signature was returned with an issued challenge. That is so in every run in which no scope has a colon.
-/
theorem redeemsIssued_iff (c : Crypto) (calls : List GateCall)
    : let log := (Calls.play (GateCall.run c) calls {}).1
      (∀ (e : RedeemEnv) (req : CapRedeemRequest), req.Passes c e →
        ((∃ challenge ∈ issuedIn log, challenge.tuple = req.challenge.tuple)
          ↔ req.challenge.NoColons ∧ ∃ challenge ∈ issuedIn log, challenge.signature = req.challenge.signature))
        ∧ ((∀ e scope target, .generate e scope target ∈ calls → ':' ∉ scope.toList) → Unforged c log →
          RedeemsIssued c log) := by
  refine ⟨fun e req hpasses => exists_issued_iff hpasses.signature, fun hscopes hunforged => ?_⟩
  intro before e req answer after hlog hpasses
  obtain ⟨challenge, hissued, htuple, -⟩ := exists_issued_of_unforged hscopes hunforged hlog hpasses.signature
  exact ⟨challenge, hissued, htuple⟩

end Runs

section Shifting

theorem signatureValid_challengeOf (e : ChallengeEnv) (scope : String) (target : Option String)
    : (challengeOf (c := c) e scope target).signatureValid c = true := by
  have hissued : (challengeOf (c := c) e scope target).Issued c := issued_challengeOf e scope target
  rw [CapChallenge.signatureValid, hissued.signature, decide_eq_true_eq]

theorem redeemsIssued_iff_bundle
    : ∃ challenge ∈ issuedIn (Calls.play (GateCall.run .samePrime) issuing {}).1,
        challenge.tuple = (redeemFirst "1").challenge.tuple := by
  have hpasses : (redeemFirst "1").Passes .samePrime redeemEnv :=
    ⟨rfl, Nat.zero_le _, rfl, signatureValid_challengeOf _ _ _⟩
  refine ((redeemsIssued_iff .samePrime issuing).1 redeemEnv (redeemFirst "1") hpasses).2 ⟨?_, bundle 1, ?_, rfl⟩
  . exact noColons_challengeOf _ _ _
  . rw [issuedIn_issuing]
    exact List.mem_cons_self

/--
The challenge that is issued for the scope `x:phantom`.
-/
def scopedChallenge : CapChallenge := challengeOf (c := .samePrime) (bundleEnv 1) "x:phantom" none

def shiftedChallenge : CapChallenge := { scopedChallenge with challengeId := "1:x", scope := "phantom" }

def redeemShifted : CapRedeemRequest :=
  { challengeId := "1:x", scope := "phantom", challenge := shiftedChallenge, vdfProof := solution, nullifier := ""
    pqcCiphertext := { keyId := "", ctHex := "" } }

def shifting : List GateCall := [.generate (bundleEnv 1) "x:phantom" none, .redeem redeemEnv redeemShifted]

theorem play_shifting
    : ∃ answer, (Calls.play (GateCall.run .samePrime) shifting {}).1
        = [(.generate (bundleEnv 1) "x:phantom" none, .ok (.challenge scopedChallenge)),
          (.redeem redeemEnv redeemShifted, answer)] := by
  have hgenerate : (GateCall.run .samePrime (.generate (bundleEnv 1) "x:phantom" none) {}).1
      = .ok (.challenge scopedChallenge) := by
    obtain ⟨keys, hrun, -⟩ := generateCapChallenge_run (c := .samePrime) (bundleEnv 1) "x:phantom" none {}
    rw [GateCall.run, GateCall.handle, outcome_bind_pure, Calls.outcome_of_ok hrun]
    rfl
  rw [shifting, Calls.play_cons, Calls.play_cons, Calls.play_nil, hgenerate]
  exact ⟨_, rfl⟩

theorem text_shiftedChallenge : shiftedChallenge.text = scopedChallenge.text := by
  have hid : scopedChallenge.challengeId = "1" := by decide
  have hscope : scopedChallenge.scope = "x:phantom" := rfl
  refine String.toList_inj.1 ?_
  simp only [CapChallenge.text, challengeText, Text.toList_join_cons, shiftedChallenge, hid, hscope]
  rfl

theorem passes_redeemShifted : redeemShifted.Passes .samePrime redeemEnv := by
  have hvalid : scopedChallenge.signatureValid .samePrime = true := signatureValid_challengeOf _ _ _
  refine ⟨rfl, Nat.zero_le _, rfl, ?_⟩
  rw [CapChallenge.signatureValid, decide_eq_true_eq] at hvalid ⊢
  exact (congrArg _ text_shiftedChallenge).trans hvalid

/--
A challenge for one scope is redeemed for another.
-/
theorem not_redeemsIssued_shifted
    : ¬ ∀ (c : Crypto) (calls : List GateCall), Unforged c (Calls.play (GateCall.run c) calls {}).1 →
      RedeemsIssued c (Calls.play (GateCall.run c) calls {}).1 := by
  intro h
  obtain ⟨answer, hplay⟩ := play_shifting
  have hunforged : Unforged .samePrime (Calls.play (GateCall.run .samePrime) shifting {}).1 := by
    intro before e req reply after hlog _
    rw [hplay] at hlog
    match before, hlog with
    | [], hlog => exact nomatch (Prod.mk.inj (List.cons.inj hlog).1).1
    | [first], hlog =>
      simp only [List.singleton_append, List.cons.injEq, Prod.mk.injEq, GateCall.redeem.injEq] at hlog
      obtain ⟨rfl, ⟨⟨rfl, rfl⟩, rfl⟩, rfl⟩ := hlog
      exact ⟨_, .challenge scopedChallenge, List.mem_singleton_self _, List.mem_singleton_self _⟩
    | first :: second :: more, hlog =>
      simp at hlog
  obtain ⟨challenge, hissued, htuple⟩ :=
    h .samePrime shifting hunforged [_] redeemEnv redeemShifted answer [] hplay passes_redeemShifted
  obtain rfl : challenge = scopedChallenge := List.mem_singleton.1 hissued
  have hid : "1" = "1:x" := congrArg Prod.fst htuple
  exact absurd hid (by decide)

end Shifting

end Lqxp
