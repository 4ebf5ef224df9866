import Lqxp.Gates.System

/-!
This module contains what a redemption spends: the key that its ciphertext names and the nullifier that it names
itself, which the signature of the challenge does not tie to the challenge.
-/

namespace Lqxp

/--
The key has been taken out of the store.
-/
def Gates.UsesKey (s s' : Gates) (keyId : String) : Prop :=
  (s.pqcActiveKeys.lookup keyId).isSome ∧ s'.pqcActiveKeys.lookup keyId = none

/--
The nullifier has been put into the memory of nullifiers.
-/
def Gates.Spends (s s' : Gates) (nullifier : String) : Prop :=
  Spending.Added s.rlnNullifiers s'.rlnNullifiers nullifier

variable (c : Crypto)

def EpochQuotaToken.nullifier (token : EpochQuotaToken) (action : String) : String :=
  computeNullifier c token.ticket token.epoch action

/--
From `s` to `s'` the key of the signed challenge is used, and the nullifier of the quota token that was issued in
this challenge is spent.
-/
structure SpendsBundle (issued : List CapChallenge) (req : CapRedeemRequest) (s s' : Gates) : Prop where
  key (keyId : String) : s.UsesKey s' keyId ↔ keyId = req.challenge.pqcKey.keyId
  token : ∃ challenge ∈ issued,
    challenge.signature = req.challenge.signature
      ∧ challenge.pqcKey.keyId = req.challenge.pqcKey.keyId
      ∧ ∀ nullifier, s.Spends s' nullifier ↔ nullifier = challenge.quotaToken.nullifier c req.scope

/--
A request names the key of its challenge, and the nullifier of the quota token that was issued with the
signature of its challenge.
-/
def CapRedeemRequest.BringsBack (req : CapRedeemRequest) (issued : List CapChallenge) : Prop :=
  req.pqcCiphertext.keyId = req.challenge.pqcKey.keyId
    ∧ ∃ challenge ∈ issued,
        challenge.signature = req.challenge.signature
          ∧ req.nullifier = challenge.quotaToken.nullifier c req.scope

variable {c} {s s' : Gates}

section Keys

def isHexKey (keyId : String) : Prop := ∃ n, keyId = Text.hexDigits n

theorem isHexKey.not_mem {keyId : String} (h : isHexKey keyId) : ':' ∉ keyId.toList := by
  obtain ⟨n, rfl⟩ := h
  exact Text.not_mem_hexDigits (by decide) n

/--
The keys that have come into the store have the form of issued keys.
-/
def KeysIssued (s s' : Gates) : Prop :=
  ∀ keyId, (s'.pqcActiveKeys.lookup keyId).isSome → isHexKey keyId ∨ (s.pqcActiveKeys.lookup keyId).isSome

theorem KeysIssued.of_eq (h : s'.pqcActiveKeys = s.pqcActiveKeys) : KeysIssued s s' := by
  intro keyId hkey
  rw [h] at hkey
  exact .inr hkey

theorem KeysIssued.refl (s : Gates) : KeysIssued s s := .of_eq rfl

theorem KeysIssued.trans {s₁ s₂ s₃ : Gates} (h : KeysIssued s₁ s₂) (h' : KeysIssued s₂ s₃) : KeysIssued s₁ s₃ := by
  intro keyId hkey
  rcases h' keyId hkey with hhex | hkey
  . exact .inl hhex
  . exact h keyId hkey

/--
A piece of a call only puts issued keys into the store.
-/
abbrev IssuesKeys {α : Type} (x : Gated α) : Prop := Calls.Within KeysIssued x

namespace IssuesKeys

theorem bind {α β : Type} {x : Gated α} {f : α → Gated β} (hx : IssuesKeys x) (hf : ∀ a, IssuesKeys (f a))
    : IssuesKeys (x >>= f) :=
  Calls.Within.bind (R := KeysIssued) KeysIssued.trans hx hf

theorem pure {α : Type} (a : α) : IssuesKeys (pure a) := .refl

theorem refuseIf (cond : Prop) [Decidable cond] (err : ApiError) : IssuesKeys (refuseIf cond err) := by
  intro s
  rw [Calls.final, Calls.outcome, refuseIf_run]
  by_cases h : cond
  . rw [if_pos h]
    exact .refl s
  . rw [if_neg h]
    exact .refl s

theorem issuePqcChallenge (expiryNow now : Nat) (keyIdBits : BitVec 128) (dk ek : List UInt8)
    : IssuesKeys (issuePqcChallenge expiryNow now keyIdBits dk ek) := by
  intro s
  obtain ⟨keys, hrun, hkeys⟩ := issuePqcChallenge_run expiryNow now keyIdBits dk ek s
  rw [Calls.final, Calls.outcome_of_ok hrun]
  exact fun keyId hkey => (hkeys keyId hkey).imp_left fun heq => ⟨_, heq⟩

theorem generateCapChallenge (e : ChallengeEnv) (scope : String) (target : Option String)
    : IssuesKeys (generateCapChallenge c e scope target) := by
  intro s
  obtain ⟨keys, hrun, hkeys⟩ := generateCapChallenge_run (c := c) e scope target s
  rw [Calls.final, Calls.outcome_of_ok hrun]
  exact fun keyId hkey => (hkeys keyId hkey).imp_left fun heq => ⟨_, heq⟩

theorem verifyAndConsumeNullifier (now epochNow : Nat) (token : EpochQuotaToken) (nullifier action : String)
    : IssuesKeys (verifyAndConsumeNullifier c now epochNow token nullifier action) := by
  intro s
  obtain ⟨rlnNullifiers, hfinal⟩ := final_verifyAndConsumeNullifier c now epochNow token nullifier action s
  rw [hfinal]
  exact .of_eq rfl

theorem verifyAndConsumeVdf (verifyNow now : Nat) (challenge : VdfChallenge) (proof : VdfProof)
    (target : Option String) : IssuesKeys (verifyAndConsumeVdf c verifyNow now challenge proof target) := by
  intro s
  obtain ⟨vdfConsumed, hfinal⟩ := final_verifyAndConsumeVdf c verifyNow now challenge proof target s
  rw [hfinal]
  exact .of_eq rfl

theorem verifyAndDecapsulatePqc (now : Nat) (ct : PqcCiphertext)
    : IssuesKeys (verifyAndDecapsulatePqc c now ct) := by
  intro s
  rcases final_verifyAndDecapsulatePqc c now ct s with hfinal | hfinal
  . rw [hfinal]
    exact .refl s
  . rw [hfinal]
    intro keyId hkey
    simp only [AssocMap.lookup_erase] at hkey
    split at hkey
    . contradiction
    . exact .inr hkey

theorem modify {f : Gates → Gates} (h : ∀ s, (f s).pqcActiveKeys = s.pqcActiveKeys)
    : IssuesKeys (modify f : Gated Unit) :=
  fun s => .of_eq (h s)

theorem redeemCapChallenge (e : RedeemEnv) (req : CapRedeemRequest)
    : IssuesKeys (redeemCapChallenge c e req) := by
  refine bind (refuseIf _ _) fun _ => bind (refuseIf _ _) fun _ => bind (refuseIf _ _) fun _ =>
    bind (refuseIf _ _) fun _ => ?_
  refine bind (verifyAndConsumeNullifier _ _ _ _ _) fun _ => bind (verifyAndConsumeVdf _ _ _ _ _) fun _ => ?_
  refine bind (verifyAndDecapsulatePqc _ _) fun _ => bind (refuseIf _ _) fun _ => bind (refuseIf _ _) fun _ => ?_
  exact bind (modify fun _ => rfl) fun _ => pure _

theorem spend {cond : Gates → Prop} [∀ s, Decidable (cond s)] {f : Gates → Gates} {err : ApiError}
    (h : ∀ s, (f s).pqcActiveKeys = s.pqcActiveKeys)
    : IssuesKeys (do
        let gates ← (get : Gated Gates)
        set (f gates)
        Lqxp.refuseIf (cond gates) err) := by
  intro s
  rw [Calls.final, Calls.outcome, get_bind, set_bind]
  exact (KeysIssued.of_eq (h s)).trans (refuseIf _ _ _)

theorem verifyAndConsumeCapToken (now : Nat) (token scope : String)
    : IssuesKeys (verifyAndConsumeCapToken c now token scope) := by
  unfold Lqxp.verifyAndConsumeCapToken
  dsimp only
  split
  . refine bind (refuseIf _ _) fun _ => ?_
    split
    . exact bind (refuseIf _ _) fun _ => bind (refuseIf _ _) fun _ => spend fun _ => rfl
    . exact .refl
  . exact .refl

theorem consumeDepositToken (now : Nat) (token : String)
    : IssuesKeys (consumeDepositToken c now token) := by
  unfold Lqxp.consumeDepositToken
  dsimp only
  split
  . refine bind (refuseIf _ _) fun _ => ?_
    split
    . exact bind (refuseIf _ _) fun _ => bind (refuseIf _ _) fun _ => spend fun _ => rfl
    . exact .refl
  . exact .refl

theorem handle (call : GateCall) : IssuesKeys (call.handle c) := by
  cases call with
  | generate e scope target => exact bind (generateCapChallenge _ _ _) fun _ => pure _
  | redeem e req => exact bind (redeemCapChallenge _ _) fun _ => pure _
  | issueKey expiryNow now keyIdBits dk ek => exact bind (issuePqcChallenge _ _ _ _ _) fun _ => pure _
  | decapsulate now ct => exact bind (verifyAndDecapsulatePqc _ _) fun _ => pure _
  | consumeNullifier now epochNow token nullifier action =>
    exact bind (verifyAndConsumeNullifier _ _ _ _ _) fun _ => pure _
  | consumeVdf verifyNow now challenge proof target =>
    exact bind (verifyAndConsumeVdf _ _ _ _ _) fun _ => pure _
  | consumeCapToken now token scope => exact bind (verifyAndConsumeCapToken _ _ _) fun _ => pure _
  | issueDeposit now tokenIdBits => exact bind (bind (modify fun _ => rfl) fun _ => pure _) fun _ => pure _
  | consumeDeposit now token => exact bind (consumeDepositToken _ _) fun _ => pure _

end IssuesKeys

theorem isHexKey_of_play (c : Crypto) (calls : List GateCall) {keyId : String}
    (h : ((Calls.play (GateCall.run c) calls {}).2.pqcActiveKeys.lookup keyId).isSome) : isHexKey keyId := by
  suffices hissued : KeysIssued {} (Calls.play (GateCall.run c) calls {}).2 by
    rcases hissued keyId h with hhex | hnone
    . exact hhex
    . simp at hnone
  refine Calls.play_induction calls {} (fun _ s => KeysIssued {} s) (.refl _) fun log s call _ hkeys => ?_
  exact hkeys.trans (IssuesKeys.handle call s)

end Keys

section Issued

/--
A challenge as the server issues it: signed, and with a key of the usual form.
-/
structure CapChallenge.Issued (c : Crypto) (challenge : CapChallenge) : Prop where
  signature : challenge.signature = c.capMac.sign challenge.text
  keyId : isHexKey challenge.pqcKey.keyId

theorem issued_challengeOf (e : ChallengeEnv) (scope : String) (target : Option String)
    : (challengeOf (c := c) e scope target).Issued c :=
  ⟨rfl, _, rfl⟩

theorem mem_issuedIn_singleton {call : GateCall} {answer : ApiResult GateAnswer} {challenge : CapChallenge}
    : challenge ∈ issuedIn [(call, answer)] ↔ answer = .ok (.challenge challenge) := by
  unfold issuedIn
  cases answer with
  | error err => simp
  | ok answer =>
    cases answer <;> simp [eq_comm]

theorem outcome_ne_of_forall {α : Type} {x : Gated α} {f : α → GateAnswer} {answer : GateAnswer}
    (hf : ∀ a, f a ≠ answer) : (Calls.outcome (x >>= fun a => pure (f a)) s).1 ≠ .ok answer := by
  rw [outcome_bind_pure]
  intro h
  cases hx : (Calls.outcome x s).1 with
  | error err =>
    rw [hx] at h
    contradiction
  | ok a =>
    rw [hx] at h
    exact hf a (Except.ok.inj h)

theorem exists_of_run_challenge {call : GateCall} {challenge : CapChallenge}
    (h : (call.run c s).1 = .ok (.challenge challenge))
    : ∃ e scope target, call = .generate e scope target ∧ challenge = challengeOf (c := c) e scope target := by
  cases call with
  | generate e scope target =>
    obtain ⟨keys, hrun, -⟩ := generateCapChallenge_run (c := c) e scope target s
    rw [GateCall.run, GateCall.handle, outcome_bind_pure, Calls.outcome_of_ok hrun] at h
    exact ⟨e, scope, target, rfl, (GateAnswer.challenge.inj (Except.ok.inj h)).symm⟩
  | redeem | issueKey | decapsulate | consumeNullifier | consumeVdf | consumeCapToken | issueDeposit
  | consumeDeposit => exact absurd h (outcome_ne_of_forall fun _ ha => nomatch ha)

theorem exists_of_play_challenge {calls : List GateCall} {challenge : CapChallenge}
    (h : challenge ∈ issuedIn (Calls.play (GateCall.run c) calls s).1)
    : ∃ e scope target, .generate e scope target ∈ calls ∧ challenge = challengeOf (c := c) e scope target := by
  obtain ⟨⟨call, answer⟩, hentry, hanswer⟩ := List.mem_filterMap.1 h
  obtain ⟨hcall, s', rfl⟩ := Calls.exists_of_mem_play hentry
  have hissues : challenge ∈ issuedIn [(call, (call.run c s').1)] := by
    rw [issuedIn, List.mem_filterMap]
    exact ⟨_, List.mem_singleton_self _, hanswer⟩
  obtain ⟨e, scope, target, rfl, heq⟩ := exists_of_run_challenge (mem_issuedIn_singleton.1 hissues)
  exact ⟨e, scope, target, hcall, heq⟩

theorem issued_of_play (c : Crypto) (calls : List GateCall) (s : Gates)
    : ∀ challenge ∈ issuedIn (Calls.play (GateCall.run c) calls s).1, challenge.Issued c := by
  intro challenge hmem
  obtain ⟨e, scope, target, -, rfl⟩ := exists_of_play_challenge hmem
  exact issued_challengeOf e scope target

end Issued

section Redeeming

variable {e : RedeemEnv} {req : CapRedeemRequest} {response : CapRedeemResponse}

theorem usesKey_iff (h : redeemCapChallenge c e req s = .ok response s') (keyId : String)
    : s.UsesKey s' keyId ↔ keyId = req.pqcCiphertext.keyId := by
  obtain ⟨-, -, hkey, rlnNullifiers, vdfConsumed, capTokens, -, rfl⟩ := redeemCapChallenge_eq_ok h
  rw [Gates.UsesKey, AssocMap.lookup_erase]
  constructor
  . rintro ⟨hsome, hnone⟩
    by_contra hne
    rw [if_neg hne] at hnone
    simp [hnone] at hsome
  . rintro rfl
    exact ⟨hkey, if_pos rfl⟩

theorem spends_iff (h : redeemCapChallenge c e req s = .ok response s') (nullifier : String)
    : s.Spends s' nullifier ↔ nullifier = req.nullifier := by
  obtain ⟨-, -, -, rlnNullifiers, vdfConsumed, capTokens, hspend, rfl⟩ := redeemCapChallenge_eq_ok h
  exact Spending.added_iff_of_spendOnce (Nat.lt_add_of_pos_right (by decide)) hspend

end Redeeming

/--
A redemption that succeeds, after any calls, spends one issued bundle exactly if its request names the key and
the nullifier of that bundle.
-/
theorem spendsBundle_iff (c : Crypto) (calls : List GateCall) (e : RedeemEnv) (req : CapRedeemRequest)
    (response : CapRedeemResponse) (s' : Gates)
    (h : redeemCapChallenge c e req (Calls.play (GateCall.run c) calls {}).2 = .ok response s')
    : SpendsBundle c (issuedIn (Calls.play (GateCall.run c) calls {}).1) req
          (Calls.play (GateCall.run c) calls {}).2 s'
        ↔ req.BringsBack c (issuedIn (Calls.play (GateCall.run c) calls {}).1) := by
  constructor
  . rintro ⟨hkey, challenge, hissued, hsignature, -, hspends⟩
    refine ⟨?_, challenge, hissued, hsignature, ?_⟩
    . exact (hkey _).1 ((usesKey_iff h _).2 rfl)
    . exact (hspends _).1 ((spends_iff h _).2 rfl)
  . rintro ⟨hkey, challenge, hissued, hsignature, hnullifier⟩
    refine ⟨fun keyId => ?_, challenge, hissued, hsignature, ?_, fun nullifier => ?_⟩
    . rw [← hkey]
      exact usesKey_iff h keyId
    . obtain ⟨hsigned, -, hstored, -⟩ := redeemCapChallenge_eq_ok h
      obtain ⟨hsignature', hhex⟩ := issued_of_play c calls {} challenge hissued
      -- a signature settles the signed text, and the key is its last field
      have htext : challenge.text = req.challenge.text := by
        rw [CapChallenge.signatureValid, decide_eq_true_eq] at hsigned
        rw [← c.capMac.sign_inj, hsigned, ← hsignature', hsignature]
      have hhex' : isHexKey req.challenge.pqcKey.keyId := by
        rw [← hkey]
        exact isHexKey_of_play c calls hstored
      exact (Text.join_concat_inj [_, _, _, _, _] [_, _, _, _, _] (by simp) (by simp) hhex.not_mem
        hhex'.not_mem htext).2
    . rw [← hnullifier]
      exact spends_iff h nullifier

section Mixing

def bundleEnv (bits : BitVec 128) : ChallengeEnv :=
  { challengeIdBits := bits, now := 0, vdfNow := 0, saltBits := 7, epochNow := 0, nonce := bits, keyIdBits := bits
    dk := [], ek := [], pqcExpiryNow := 0, pqcNow := 0 }

def bundle (bits : BitVec 128) : CapChallenge := challengeOf (c := .samePrime) (bundleEnv bits) "phantom" none

def issuing : List GateCall := [.generate (bundleEnv 1) "phantom" none, .generate (bundleEnv 2) "phantom" none]

def redeemFirst (keyId : String) : CapRedeemRequest :=
  { challengeId := (bundle 1).challengeId, scope := "phantom", challenge := bundle 1, vdfProof := solution
    nullifier := (bundle 1).quotaToken.nullifier .samePrime "phantom", pqcCiphertext := { keyId, ctHex := "" } }

def redeemEnv : RedeemEnv :=
  { now := 0, nullifierNow := 0, epochNow := 0, vdfVerifyNow := 0, vdfNow := 0, pqcNow := 0, tokenIdBits := 0 }

theorem play_issuing
    : ∃ log, Calls.play (GateCall.run .samePrime) issuing {}
        = (log, { pqcActiveKeys := ((∅ : AssocMap String PqcSecretKey).insert "1"
            { dk := [], expiresAt := 180000 }).insert "2" { dk := [], expiresAt := 180000 } }) :=
  ⟨_, rfl⟩

theorem issuedIn_issuing
    : issuedIn (Calls.play (GateCall.run .samePrime) issuing {}).1 = [bundle 1, bundle 2] := rfl

theorem verifyAndConsumeNullifier_ok {c : Crypto} {now epochNow : Nat} {token : EpochQuotaToken}
    {nullifier action : String} {s : Gates} (haccepts : NullifierAccepts c epochNow token nullifier action)
    (hfresh : ∀ old, s.rlnNullifiers.lookup nullifier = some old → old ≤ now)
    : verifyAndConsumeNullifier c now epochNow token nullifier action s
        = .ok () { s with rlnNullifiers :=
            (Spending.purge 10000 now s.rlnNullifiers).insert nullifier (now + nullifierTtlMs) } := by
  have hwindow : ¬ (currentEpoch epochNow + 1 < token.epoch ∨ 4 < currentEpoch epochNow - token.epoch) := by
    have := haccepts.window
    rw [inWindow] at this
    omega
  obtain rfl := haccepts.nullifier
  simp only [verifyAndConsumeNullifier, refuseIf_bind, get_bind, set_bind, refuseIf_run, if_neg hwindow,
    haccepts.signature, Bool.true_eq_false, if_false, ne_eq, not_true_eq_false,
    Spending.spendOnce_eq 10000 (now + nullifierTtlMs) hfresh]

theorem accepts_bundle (bits : BitVec 128)
    : NullifierAccepts .samePrime 0 (bundle bits).quotaToken ((bundle bits).quotaToken.nullifier .samePrime "phantom")
        "phantom" := by
  have hepoch : (bundle bits).quotaToken.epoch = 0 := show currentEpoch 0 = 0 by decide
  refine ⟨?_, decide_eq_true rfl, rfl⟩
  rw [hepoch]
  exact ⟨by decide, by decide⟩

theorem redeemFirst_run (keyId : String) {s : Gates}
    (hkey : s.pqcActiveKeys.lookup keyId = some { dk := [], expiresAt := 180000 })
    (hnullifiers : s.rlnNullifiers = ∅) (hvdf : s.vdfConsumed = ∅)
    : ∃ response s', redeemCapChallenge .samePrime redeemEnv (redeemFirst keyId) s = .ok response s' := by
  have hsigned : (bundle 1).signatureValid .samePrime = true := by
    have hissued : (bundle 1).Issued .samePrime := issued_challengeOf _ _ _
    rw [CapChallenge.signatureValid, hissued.signature, decide_eq_true_eq]
  have hspend : verifyAndConsumeNullifier .samePrime 0 0 (bundle 1).quotaToken (redeemFirst keyId).nullifier
      "phantom" s = _ := verifyAndConsumeNullifier_ok (accepts_bundle 1) fun old hold => by
    rw [hnullifiers, AList.lookup_empty] at hold
    exact absurd hold.symm (Option.some_ne_none old)
  generalize hs₁ : { s with rlnNullifiers := _ } = s₁ at hspend
  have hconsume := outcome_useAt 0 s₁ (Nat.zero_le _) fun old hold => by
    rw [← hs₁] at hold
    simp only [hvdf, AList.lookup_empty] at hold
    exact absurd hold.symm (Option.some_ne_none old)
  generalize hs₂ : { s₁ with vdfConsumed := _ } = s₂ at hconsume
  have hpqc : verifyAndDecapsulatePqc .samePrime 0 { keyId, ctHex := "" } s₂
      = .ok [] { s₂ with pqcActiveKeys := s₂.pqcActiveKeys.erase keyId } := by
    have hkey' : s₂.pqcActiveKeys.lookup keyId = some { dk := [], expiresAt := 180000 } := by
      rw [← hs₂, ← hs₁]
      exact hkey
    simp only [verifyAndDecapsulatePqc, get_bind, hkey']
    rfl
  obtain ⟨u, hvdfrun⟩ : ∃ u : Unit,
      verifyAndConsumeVdf .samePrime 0 0 solvedChallenge solution none s₁ = .ok u s₂ := by
    rw [VdfCall.run, Calls.outcome] at hconsume
    split at hconsume
    next u s₃ heq =>
      obtain rfl := (Prod.mk.inj hconsume).2
      exact ⟨u, heq⟩
    next => exact absurd (Prod.mk.inj hconsume).1 (by simp)
  rw [redeemCapChallenge]
  simp only [refuseIf_bind]
  have hexpires : ¬ (redeemFirst keyId).challenge.expiresAt < redeemEnv.now := Nat.not_lt_zero _
  have hsigned' : ¬ (redeemFirst keyId).challenge.signatureValid .samePrime = false := fun h =>
    absurd (hsigned.symm.trans h) (by decide)
  rw [if_neg (fun h => h rfl), if_neg hexpires, if_neg (fun h => h rfl), if_neg hsigned']
  exact ⟨_, _, Calls.bind_eq_ok.2 ⟨_, _, hspend, Calls.bind_eq_ok.2 ⟨_, _, hvdfrun,
    Calls.bind_eq_ok.2 ⟨_, _, hpqc, rfl⟩⟩⟩⟩

/--
Brought back as it was issued, the first bundle is spent.
-/
theorem spendsBundle_bringsBack
    : ∃ response s',
        redeemCapChallenge .samePrime redeemEnv (redeemFirst "1") (Calls.play (GateCall.run .samePrime) issuing {}).2
            = .ok response s'
          ∧ SpendsBundle .samePrime (issuedIn (Calls.play (GateCall.run .samePrime) issuing {}).1) (redeemFirst "1")
              (Calls.play (GateCall.run .samePrime) issuing {}).2 s' := by
  obtain ⟨log, hplay⟩ := play_issuing
  obtain ⟨response, s', hrun⟩ := redeemFirst_run "1"
    (s := (Calls.play (GateCall.run .samePrime) issuing {}).2) (by rw [hplay]; rfl) (by rw [hplay]) (by rw [hplay])
  refine ⟨response, s', hrun, (spendsBundle_iff .samePrime issuing redeemEnv _ response s' hrun).2 ?_⟩
  refine ⟨rfl, bundle 1, ?_, rfl, rfl⟩
  rw [issuedIn_issuing]
  exact List.mem_cons_self

def SpendsBundles : Prop :=
  ∀ (c : Crypto) (calls : List GateCall) (e : RedeemEnv) (req : CapRedeemRequest) (response : CapRedeemResponse)
    (s' : Gates),
    redeemCapChallenge c e req (Calls.play (GateCall.run c) calls {}).2 = .ok response s' →
      SpendsBundle c (issuedIn (Calls.play (GateCall.run c) calls {}).1) req
        (Calls.play (GateCall.run c) calls {}).2 s'

/--
The first bundle is redeemed with the key of the second.
-/
theorem not_spendsBundles : ¬ SpendsBundles := by
  intro h
  obtain ⟨log, hplay⟩ := play_issuing
  obtain ⟨response, s', hrun⟩ := redeemFirst_run "2"
    (s := (Calls.play (GateCall.run .samePrime) issuing {}).2) (by rw [hplay]; rfl) (by rw [hplay]) (by rw [hplay])
  have hkey := ((h .samePrime issuing redeemEnv _ response s' hrun).key "2").1 ((usesKey_iff hrun "2").2 rfl)
  exact absurd hkey (by decide)

end Mixing

end Lqxp
