import Lqxp.Core.Cap
import Lqxp.Gates.DelayChallenges
import Lqxp.Gates.Nullifiers
import Lqxp.Services.PrivacyPass

/-!
This module contains the calls that the routes of the server make to its gates, served one after the other, and
what the issue and the redemption of a challenge do.
-/

namespace Lqxp

inductive GateCall where
  | generate (e : ChallengeEnv) (scope : String) (target : Option String)
  | redeem (e : RedeemEnv) (req : CapRedeemRequest)
  | issueKey (expiryNow now : Nat) (keyIdBits : BitVec 128) (dk ek : List UInt8)
  | decapsulate (now : Nat) (ct : PqcCiphertext)
  | consumeNullifier (now epochNow : Nat) (token : EpochQuotaToken) (nullifier action : String)
  | consumeVdf (verifyNow now : Nat) (challenge : VdfChallenge) (proof : VdfProof) (target : Option String)
  | consumeCapToken (now : Nat) (token scope : String)
  | issueDeposit (now : Nat) (tokenIdBits : BitVec 128)
  | consumeDeposit (now : Nat) (token : String)

inductive GateAnswer where
  | challenge (challenge : CapChallenge)
  | redeemed (response : CapRedeemResponse)
  | depositToken (token : String)
  | done

variable (c : Crypto)

def GateCall.handle : GateCall → Gated GateAnswer
  | .generate e scope target => return .challenge (← generateCapChallenge c e scope target)
  | .redeem e req => return .redeemed (← redeemCapChallenge c e req)
  | .issueKey expiryNow now keyIdBits dk ek => do
    let _ ← issuePqcChallenge expiryNow now keyIdBits dk ek
    return .done
  | .decapsulate now ct => do
    let _ ← verifyAndDecapsulatePqc c now ct
    return .done
  | .consumeNullifier now epochNow token nullifier action => do
    verifyAndConsumeNullifier c now epochNow token nullifier action
    return .done
  | .consumeVdf verifyNow now challenge proof target => do
    verifyAndConsumeVdf c verifyNow now challenge proof target
    return .done
  | .consumeCapToken now token scope => do
    verifyAndConsumeCapToken c now token scope
    return .done
  | .issueDeposit now tokenIdBits => return .depositToken (← issueDepositToken c now tokenIdBits)
  | .consumeDeposit now token => do
    consumeDepositToken c now token
    return .done

def GateCall.run (call : GateCall) : Gates → ApiResult GateAnswer × Gates := Calls.outcome (call.handle c)

abbrev GateLog := List (GateCall × ApiResult GateAnswer)

def issuedIn (log : GateLog) : List CapChallenge :=
  log.filterMap fun
    | (_, .ok (.challenge challenge)) => some challenge
    | _ => none

section Finals

theorem final_verifyAndConsumeNullifier (now epochNow : Nat) (token : EpochQuotaToken)
    (nullifier action : String) (s : Gates)
    : ∃ rlnNullifiers,
        Calls.final (verifyAndConsumeNullifier c now epochNow token nullifier action) s = { s with rlnNullifiers } := by
  rw [Calls.final, Calls.outcome]
  rcases verifyAndConsumeNullifier_cases c now epochNow token nullifier action s with
    ⟨err, herr⟩ | ⟨fresh, rlnNullifiers, -, -, hrun⟩
  . rw [herr]
    exact ⟨s.rlnNullifiers, rfl⟩
  . rw [hrun]
    cases fresh <;> exact ⟨rlnNullifiers, rfl⟩

theorem final_verifyAndConsumeVdf (verifyNow now : Nat) (challenge : VdfChallenge) (proof : VdfProof)
    (target : Option String) (s : Gates)
    : ∃ vdfConsumed,
        Calls.final (verifyAndConsumeVdf c verifyNow now challenge proof target) s = { s with vdfConsumed } := by
  rw [Calls.final, Calls.outcome]
  rcases verifyAndConsumeVdf_cases c verifyNow now challenge proof target s with
    ⟨err, herr⟩ | ⟨fresh, vdfConsumed, -, -, hrun⟩
  . rw [herr]
    exact ⟨s.vdfConsumed, rfl⟩
  . rw [hrun]
    cases fresh <;> exact ⟨vdfConsumed, rfl⟩

theorem final_verifyAndDecapsulatePqc (now : Nat) (ct : PqcCiphertext) (s : Gates)
    : Calls.final (verifyAndDecapsulatePqc c now ct) s = s
        ∨ Calls.final (verifyAndDecapsulatePqc c now ct) s
          = { s with pqcActiveKeys := s.pqcActiveKeys.erase ct.keyId } := by
  simp only [Calls.final, Calls.outcome, verifyAndDecapsulatePqc, get_bind]
  cases s.pqcActiveKeys.lookup ct.keyId with
  | none => exact .inl rfl
  | some sk =>
    right
    simp only [set_bind, refuseIf_bind]
    by_cases hexpired : sk.expiresAt < now
    . rw [if_pos hexpired]
    . rw [if_neg hexpired]
      cases hexDecode ct.ctHex with
      | error u => rfl
      | ok bytes =>
        cases bytes with
        | none => rfl
        | some ctBytes =>
          dsimp only
          cases c.decapsulate sk.dk ctBytes with
          | none => rfl
          | some shared => rfl

theorem outcome_bind_pure {α β : Type} {x : Gated α} {f : α → β} {s : Gates}
    : Calls.outcome (x >>= fun a => pure (f a)) s = ((Calls.outcome x s).1.map f, (Calls.outcome x s).2) := by
  show Calls.outcome (EStateM.bind x fun a => EStateM.pure (f a)) s = _
  rw [Calls.outcome, Calls.outcome, EStateM.bind]
  cases x s <;> rfl

end Finals

section Issuing

variable {c}

theorem issuePqcChallenge_run (expiryNow now : Nat) (keyIdBits : BitVec 128) (dk ek : List UInt8) (s : Gates)
    : ∃ keys,
        issuePqcChallenge expiryNow now keyIdBits dk ek s
            = .ok { keyId := Text.hexDigits keyIdBits.toNat, ekHex := hexEncode ek }
                { s with pqcActiveKeys := keys }
          ∧ ∀ k, (keys.lookup k).isSome →
              k = Text.hexDigits keyIdBits.toNat ∨ (s.pqcActiveKeys.lookup k).isSome := by
  simp only [issuePqcChallenge, modify_bind, pure_run]
  split
  . refine ⟨_, rfl, fun k hk => ?_⟩
    rw [AssocMap.lookup_insert] at hk
    split at hk
    next heq => exact .inl heq
    next =>
      rw [AssocMap.lookup_retain] at hk
      exact .inr (Option.isSome_of_isSome_filter _ _ hk)
  . refine ⟨_, rfl, fun k hk => ?_⟩
    rw [AssocMap.lookup_insert] at hk
    split at hk
    next heq => exact .inl heq
    next => exact .inr hk

def challengeOf (e : ChallengeEnv) (scope : String) (target : Option String) : CapChallenge :=
  let challenge : CapChallenge :=
    { challengeId := Text.hexDigits e.challengeIdBits.toNat, scope, issuedAt := e.now
      expiresAt := e.now + capChallengeTtlMs
      vdf := generateVdfChallenge c e.vdfNow e.saltBits target none
      quotaToken := generateQuotaToken c e.epochNow e.nonce
      pqcKey := { keyId := Text.hexDigits e.keyIdBits.toNat, ekHex := hexEncode e.ek }
      signature := "" }
  { challenge with signature := c.capMac.sign challenge.text }

theorem generateCapChallenge_run (e : ChallengeEnv) (scope : String) (target : Option String) (s : Gates)
    : ∃ keys,
        generateCapChallenge c e scope target s
            = .ok (challengeOf (c := c) e scope target) { s with pqcActiveKeys := keys }
          ∧ ∀ k, (keys.lookup k).isSome →
              k = Text.hexDigits e.keyIdBits.toNat ∨ (s.pqcActiveKeys.lookup k).isSome := by
  obtain ⟨keys, hrun, hkeys⟩ := issuePqcChallenge_run e.pqcExpiryNow e.pqcNow e.keyIdBits e.dk e.ek s
  refine ⟨keys, ?_, hkeys⟩
  rw [generateCapChallenge]
  exact Calls.bind_eq_ok.2 ⟨_, _, hrun, rfl⟩

end Issuing

section Redeeming

variable {c} {e : RedeemEnv} {req : CapRedeemRequest} {s s' : Gates} {response : CapRedeemResponse}

theorem verifyAndDecapsulatePqc_eq_ok {now : Nat} {ct : PqcCiphertext} {shared : List UInt8}
    (h : verifyAndDecapsulatePqc c now ct s = .ok shared s')
    : (s.pqcActiveKeys.lookup ct.keyId).isSome
        ∧ s' = { s with pqcActiveKeys := s.pqcActiveKeys.erase ct.keyId } := by
  simp only [verifyAndDecapsulatePqc, get_bind] at h
  cases hsk : s.pqcActiveKeys.lookup ct.keyId with
  | none =>
    rw [hsk] at h
    contradiction
  | some sk =>
    simp only [hsk, set_bind, refuseIf_bind] at h
    split at h
    . contradiction
    . refine ⟨rfl, ?_⟩
      cases hct : hexDecode ct.ctHex with
      | error u =>
        rw [hct] at h
        contradiction
      | ok bytes =>
        rw [hct] at h
        cases bytes with
        | none => contradiction
        | some ctBytes =>
          cases hshared : c.decapsulate sk.dk ctBytes with
          | none => simp [hshared] at h
          | some shared' =>
            simp only [hshared, pure_run] at h
            exact (EStateM.Result.ok.inj h).2.symm

/--
A redemption that succeeds has consumed the nullifier and the delay challenge that it names, and the key that
its ciphertext names.
-/
theorem redeemCapChallenge_eq_ok (h : redeemCapChallenge c e req s = .ok response s')
    : req.challenge.signatureValid c
        ∧ NullifierAccepts c e.epochNow req.challenge.quotaToken req.nullifier req.scope
        ∧ (s.pqcActiveKeys.lookup req.pqcCiphertext.keyId).isSome
        ∧ ∃ rlnNullifiers vdfConsumed capTokens,
            Spending.spendOnce 10000 e.nullifierNow req.nullifier (e.nullifierNow + nullifierTtlMs)
                s.rlnNullifiers = (true, rlnNullifiers)
              ∧ s' = { s with
                rlnNullifiers, vdfConsumed, capTokens
                pqcActiveKeys := s.pqcActiveKeys.erase req.pqcCiphertext.keyId } := by
  simp only [redeemCapChallenge, refuseIf_bind] at h
  split at h
  . contradiction
  split at h
  . contradiction
  split at h
  . contradiction
  split at h
  . contradiction
  next hsignature =>
    obtain ⟨u, s₁, hnullifier, hrest⟩ := Calls.bind_eq_ok.1 h
    obtain ⟨haccepts, rlnNullifiers, hspend, rfl⟩ := verifyAndConsumeNullifier_eq_ok hnullifier
    obtain ⟨u', s₂, hvdf, hrest'⟩ := Calls.bind_eq_ok.1 hrest
    obtain ⟨-, vdfConsumed, -, rfl⟩ := verifyAndConsumeVdf_eq_ok hvdf
    obtain ⟨shared, s₃, hpqc, hend⟩ := Calls.bind_eq_ok.1 hrest'
    obtain ⟨hkey, rfl⟩ := verifyAndDecapsulatePqc_eq_ok hpqc
    simp only [refuseIf_bind, modify_bind, pure_run] at hend
    split at hend
    . contradiction
    split at hend
    . contradiction
    . have hs := (EStateM.Result.ok.inj hend).2.symm
      exact ⟨by simpa using hsignature, haccepts, hkey, rlnNullifiers, vdfConsumed, _, hspend, hs⟩

end Redeeming

end Lqxp
