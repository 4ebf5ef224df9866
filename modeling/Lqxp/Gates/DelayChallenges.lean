import Lqxp.Core.Vdf
import Lqxp.Prog.Calls

/-!
This module contains how often a delay challenge can be used: once before its last millisecond, and any
number of times in it.
-/

namespace Lqxp

structure VdfCall where
  verifyNow : Nat
  now : Nat
  challenge : VdfChallenge
  proof : VdfProof
  target : Option String

namespace VdfCall

def times (call : VdfCall) : List Nat := [call.verifyNow, call.now]

def run (c : Crypto) (call : VdfCall) : Gates → ApiResult Unit × Gates :=
  Calls.outcome (verifyAndConsumeVdf c call.verifyNow call.now call.challenge call.proof call.target)

/--
The challenge with the given signature has been used.
-/
def uses (signature : String) : VdfCall × ApiResult Unit → Bool
  | (call, .ok ()) => call.challenge.signature = signature
  | _ => false

end VdfCall

/--
Under a clock that does not go back, calls that are all answered as `cond` says use each challenge at most
once.
-/
def ChallengesSingleUse (cond : VdfCall × ApiResult Unit → Prop) : Prop :=
  ∀ (c : Crypto) (calls : List VdfCall) (s : Gates), Calls.Clocked VdfCall.times calls →
    (∀ entry ∈ (Calls.play (VdfCall.run c) calls s).1, cond entry) →
    ∀ signature, (Calls.play (VdfCall.run c) calls s).1.countP (VdfCall.uses signature) ≤ 1

section Steps

variable {c : Crypto} {verifyNow now : Nat} {challenge challenge' : VdfChallenge} {proof : VdfProof}
variable {target : Option String} {s s' : Gates}

theorem expiresAt_eq_of_signature (h : c.vdfMac.sign challenge.content = challenge.signature)
    (h' : c.vdfMac.sign challenge'.content = challenge'.signature)
    (hsame : challenge.signature = challenge'.signature)
    : challenge.expiresAt = challenge'.expiresAt := by
  rw [← h, ← h', c.vdfMac.sign_inj] at hsame
  rw [VdfChallenge.content, VdfChallenge.content] at hsame
  have hlast := Text.join_concat_inj [_, _, _, _, _] [_, _, _, _, _] (by simp) (by simp)
    (Text.not_mem_toString (by decide) challenge.expiresAt)
    (Text.not_mem_toString (by decide) challenge'.expiresAt) hsame
  exact Text.toString_inj hlast.2

theorem signature_of_verifyVdf (h : verifyVdf c verifyNow challenge proof target = .ok ())
    : c.vdfMac.sign challenge.content = challenge.signature := by
  by_contra hne
  simp only [verifyVdf, ne_eq, hne, not_false_eq_true, if_true] at h
  split at h <;> contradiction

theorem verifyAndConsumeVdf_cases (c : Crypto) (verifyNow now : Nat) (challenge : VdfChallenge)
    (proof : VdfProof) (target : Option String) (s : Gates)
    : (∃ err, verifyAndConsumeVdf c verifyNow now challenge proof target s = .error err s)
        ∨ ∃ fresh vdfConsumed,
            Spending.spendOnce 10000 now challenge.signature challenge.expiresAt s.vdfConsumed
              = (fresh, vdfConsumed)
            ∧ verifyVdf c verifyNow challenge proof target = .ok ()
            ∧ verifyAndConsumeVdf c verifyNow now challenge proof target s
              = if fresh = false then
                  .error (.tooManyRequests
                    "Security challenge has already been used. Please request a new one.")
                    { s with vdfConsumed }
                else
                  .ok () { s with vdfConsumed } := by
  simp only [verifyAndConsumeVdf, ofResult_bind, get_bind, set_bind, refuseIf_run]
  split
  next hverify => exact .inr ⟨_, _, rfl, hverify, rfl⟩
  next => exact .inl ⟨_, rfl⟩

theorem verifyAndConsumeVdf_eq_ok
    (h : verifyAndConsumeVdf c verifyNow now challenge proof target s = .ok () s')
    : c.vdfMac.sign challenge.content = challenge.signature
        ∧ ∃ vdfConsumed,
            Spending.spendOnce 10000 now challenge.signature challenge.expiresAt s.vdfConsumed
              = (true, vdfConsumed)
            ∧ s' = { s with vdfConsumed } := by
  rcases verifyAndConsumeVdf_cases c verifyNow now challenge proof target s with
    ⟨err, herr⟩ | ⟨fresh, vdfConsumed, hspend, hverify, hanswer⟩
  . rw [herr] at h
    contradiction
  . rw [hanswer] at h
    cases fresh with
    | false => contradiction
    | true =>
      injection h with _ hs
      exact ⟨signature_of_verifyVdf hverify, vdfConsumed, hspend, hs.symm⟩

theorem remembered_final_vdf {key : String} {bound : Nat}
    (h : Spending.Remembered key bound s.vdfConsumed) (hnow : now < bound)
    : Spending.Remembered key bound (Calls.final
        (verifyAndConsumeVdf c verifyNow now challenge proof target) s).vdfConsumed := by
  rcases verifyAndConsumeVdf_cases c verifyNow now challenge proof target s with
    ⟨err, herr⟩ | ⟨fresh, vdfConsumed, hspend, -, hanswer⟩
  . rw [Calls.final, Calls.outcome_of_error herr]
    exact h
  . have hkept := h.spendOnce_snd 10000 challenge.signature challenge.expiresAt hnow
    rw [hspend] at hkept
    rw [Calls.final, Calls.outcome, hanswer]
    cases fresh <;> exact hkept

end Steps

theorem eq_ok_of_uses (c : Crypto) {signature : String} {call : VdfCall} {s : Gates}
    (h : VdfCall.uses signature (call, (call.run c s).1))
    : verifyAndConsumeVdf c call.verifyNow call.now call.challenge call.proof call.target s
          = .ok () (call.run c s).2
        ∧ call.challenge.signature = signature := by
  rw [VdfCall.run, Calls.outcome] at h ⊢
  split at h
  . simp only [VdfCall.uses, decide_eq_true_eq] at h
    exact ⟨by assumption, h⟩
  . contradiction

/--
Where a call succeeds, it consults the memory of used challenges before its challenge expires.
-/
def ConsumedInTime (entry : VdfCall × ApiResult Unit) : Prop :=
  entry.2 = .ok () → entry.1.now < entry.1.challenge.expiresAt

/--
A challenge with the given signature has been used, and will be remembered as long as it can be used.
-/
def ChallengeSpent (c : Crypto) (signature : String) (t : Nat) (s : Gates) : Prop :=
  ∃ challenge : VdfChallenge, c.vdfMac.sign challenge.content = challenge.signature
    ∧ challenge.signature = signature
    ∧ (challenge.expiresAt ≤ t ∨ Spending.Remembered signature challenge.expiresAt s.vdfConsumed)

theorem challengesSingleUse (c : Crypto) (calls : List VdfCall) (s : Gates) (hclock : Calls.Clocked VdfCall.times calls)
    (hintime : ∀ entry ∈ (Calls.play (VdfCall.run c) calls s).1, ConsumedInTime entry) (signature : String)
    : (Calls.play (VdfCall.run c) calls s).1.countP (VdfCall.uses signature) ≤ 1 := by
  refine Calls.countP_play_le_one_of_log calls s hclock _ ConsumedInTime (ChallengeSpent c signature)
    hintime ?spend ?keep
  case spend =>
    intro t s call _ _ _ huses
    obtain ⟨hok, rfl⟩ := eq_ok_of_uses c huses
    obtain ⟨hsigned, vdfConsumed, hspend, hs⟩ := verifyAndConsumeVdf_eq_ok hok
    refine ⟨call.challenge, hsigned, rfl, .inr ?_⟩
    have hremembered := Spending.remembered_spendOnce (congrArg Prod.fst hspend)
    rw [hspend] at hremembered
    rw [hs]
    exact hremembered
  case keep =>
    intro t t' s call _ hintime hsorted hmax hspent
    obtain ⟨challenge, hsigned, hsignature, hspent⟩ := hspent
    have hlater : t ≤ call.now := (List.pairwise_cons.1 hsorted).1 _ (by simp [VdfCall.times])
    have hnow : call.now ≤ t' := hmax _ (by simp [VdfCall.times])
    constructor
    . intro huses
      obtain ⟨hok, hsame⟩ := eq_ok_of_uses c huses
      obtain ⟨hsigned', vdfConsumed, hspend, -⟩ := verifyAndConsumeVdf_eq_ok hok
      have hexpires := expiresAt_eq_of_signature hsigned hsigned' (hsignature.trans hsame.symm)
      have hanswer : (call.run c s).1 = .ok () := by
        rw [VdfCall.run, Calls.outcome_of_ok hok]
      have hbefore : call.now < call.challenge.expiresAt := hintime hanswer
      rcases hspent with hover | hremembered
      . omega
      . rw [hexpires] at hremembered
        have hused := hremembered.spendOnce_fst 10000 call.challenge.expiresAt hbefore
        rw [← hsame, hspend] at hused
        contradiction
    . refine ⟨challenge, hsigned, hsignature, ?_⟩
      rcases hspent with hover | hremembered
      . exact .inl (by omega)
      . rcases Nat.lt_or_ge call.now challenge.expiresAt with hbefore | hafter
        . exact .inr (remembered_final_vdf hremembered hbefore)
        . exact .inl (by omega)

section LastMillisecond

/--
Primitives under which every delay challenge asks for the same prime, 2 ^ 127 + 29.
-/
def Crypto.samePrime : Crypto :=
  { Crypto.simple with
    sha256 _ := .ofFn fun i => if i.val = 0 then 0x80 else if i.val = 15 then 0x1d else 0 }

def solvedChallenge : VdfChallenge := generateVdfChallenge .samePrime 0 7 none none

/--
The element of the challenge, and the power of it that its proof shows.
-/
def solvedElement : Nat := 0x8000000000000000000000000000001d00000000000000000000000000000002

def solvedPower : Nat :=
  0x48985ef4a433af6a08c09e3bffd46973fca07db7fabbfa98707a90e9151fac6460321612494ef7a6079b33775f9beecbb5df6b79bacff48ce2c7d24fe3648b9e946b4dbc241b9a3bf00b74413339832f6428e4d63d745e7f5e5ab930bd6d9470f038cb648780c1c531a883e811b76780ec36a9eb3389aca96f3dc873effc651c

def solution : VdfProof := { y := Text.hexDigits solvedPower, pi := "2" }

def useAt (now : Nat) : VdfCall :=
  { verifyNow := now, now, challenge := solvedChallenge, proof := solution, target := none }

theorem expiresAt_solvedChallenge : solvedChallenge.expiresAt = 180000 := rfl

theorem hashToPrime_samePrime (x y : Nat) : hashToPrime .samePrime x y = some (2 ^ 127 + 29) := by
  have hcandidate : primeCandidate .samePrime x y 0 = 2 ^ 127 + 29 := by
    simp only [primeCandidate, Crypto.samePrime]
    decide
  have hprime : isProbablePrime (2 ^ 127 + 29) = true := by decide +kernel
  obtain ⟨fuel, hfuel⟩ : ∃ fuel, 2 ^ 32 = fuel + 1 := ⟨2 ^ 32 - 1, by omega⟩
  rw [hashToPrime, hfuel, hashToPrime.go, hcandidate]
  simp only [hprime, if_true]

theorem x_solvedChallenge : solvedChallenge.x = Text.hexDigits solvedElement := by
  have helement : hashToElement .samePrime "" (Text.hexDigits 7) getModulus = solvedElement := by
    decide +kernel
  rw [← helement]
  rfl

theorem signature_solvedChallenge
    : Crypto.samePrime.vdfMac.sign solvedChallenge.content = solvedChallenge.signature := by
  simp only [solvedChallenge, generateVdfChallenge, VdfChallenge.content]

theorem modpow_solvedPower
    : modpow 2 (2 ^ 127 + 29) getModulus
        * modpow solvedElement (modpow 2 30000 (2 ^ 127 + 29)) getModulus % getModulus = solvedPower := by
  decide +kernel

theorem lt_solvedNumbers
    : ¬ (solvedElement < 2 ∨ solvedPower < 2 ∨ 2 < 2 ∨ getModulus ≤ solvedElement
        ∨ getModulus ≤ solvedPower ∨ getModulus ≤ 2) := by
  decide +kernel

theorem vdfEquation_solution
    : vdfEquation .samePrime solvedElement solvedPower 2 solvedChallenge.t = true := by
  have ht : solvedChallenge.t = 30000 := rfl
  rw [vdfEquation, hashToPrime_samePrime, ht]
  simp only [modpow_solvedPower, decide_true]

theorem len_solution
    : ¬ (1024 < Text.len (Text.hexDigits solvedElement) ∨ 1024 < Text.len solution.y
        ∨ 1024 < Text.len solution.pi) := by
  have hx := Text.length_hexDigits_le (n := solvedElement) (k := 256) (by omega) (by decide +kernel)
  have hy := Text.length_hexDigits_le (n := solvedPower) (k := 256) (by omega) (by decide +kernel)
  have hpi : Text.len "2" = 1 := rfl
  rw [Text.toList_hexDigits] at hx hy
  simp only [solution, Text.len_hexDigits]
  omega

theorem verifyVdf_solution {now : Nat} (h : now ≤ 180000)
    : verifyVdf .samePrime now solvedChallenge solution none = .ok () := by
  have hexpires : ¬ solvedChallenge.expiresAt < now := by
    rw [expiresAt_solvedChallenge]
    exact Nat.not_lt.2 h
  have hy : parseBigHex solution.y = some solvedPower := parseBigHex_hexDigits solvedPower
  have hpi : parseBigHex solution.pi = some 2 := parseBigHex_hexDigits 2
  rw [verifyVdf, if_neg hexpires, if_neg (not_not_intro signature_solvedChallenge), x_solvedChallenge,
    if_neg len_solution, parseBigHex_hexDigits, hy, hpi]
  simp only [if_neg lt_solvedNumbers, vdfEquation_solution]
  rfl

theorem outcome_useAt (now : Nat) (s : Gates) (h : now ≤ 180000)
    (hforgotten : ∀ old, s.vdfConsumed.lookup solvedChallenge.signature = some old → old ≤ now)
    : (useAt now).run .samePrime s
        = (.ok (),
            { s with
              vdfConsumed := (Spending.purge 10000 now s.vdfConsumed).insert solvedChallenge.signature
                solvedChallenge.expiresAt }) := by
  rw [VdfCall.run]
  apply Calls.outcome_of_ok
  simp only [useAt, verifyAndConsumeVdf, ofResult_bind, get_bind, set_bind, refuseIf_run,
    verifyVdf_solution h, Spending.spendOnce_eq 10000 solvedChallenge.expiresAt hforgotten]
  rfl

theorem refused_useAt (now : Nat) (s : Gates) (h : 180000 < now)
    : ((useAt now).run .samePrime s).1 = .error (.badRequest "VDF security challenge expired.") := by
  have hexpired : solvedChallenge.expiresAt < now := by rwa [expiresAt_solvedChallenge]
  have hverify : verifyVdf .samePrime now solvedChallenge solution none
      = .error (.badRequest "VDF security challenge expired.") := by
    rw [verifyVdf, if_pos hexpired]
    rfl
  have hrefused : verifyAndConsumeVdf .samePrime now now solvedChallenge solution none s
      = .error (.badRequest "VDF security challenge expired.") s := by
    rw [verifyAndConsumeVdf, hverify]
    rfl
  rw [VdfCall.run, useAt, Calls.outcome_of_error hrefused]

/--
Within its time the challenge is used once, and after it no more.
-/
theorem challengesSingleUse_inTime
    : ((useAt 5).run .samePrime {}).1 = .ok ()
        ∧ (∀ s, ((useAt 180001).run .samePrime s).1 ≠ .ok ())
        ∧ (Calls.play (VdfCall.run .samePrime) [useAt 5, useAt 179999, useAt 180001] {}).1.countP
            (VdfCall.uses solvedChallenge.signature) ≤ 1 := by
  refine ⟨?_, ?_, ?_⟩
  . rw [outcome_useAt 5 {} (by omega) (by simp)]
  . intro s
    rw [refused_useAt 180001 s (by omega)]
    simp
  . refine challengesSingleUse .samePrime [useAt 5, useAt 179999, useAt 180001] {} (by decide) ?_
      solvedChallenge.signature
    intro entry hentry hok
    obtain ⟨hcall, s, hanswer⟩ := Calls.exists_of_mem_play hentry
    simp only [List.mem_cons, List.not_mem_nil, or_false] at hcall
    rcases hcall with hcall | hcall | hcall
    . rw [hcall]
      decide
    . rw [hcall]
      decide
    . rw [hcall, refused_useAt 180001 s (by omega)] at hanswer
      exact absurd (hanswer.symm.trans hok) (by simp)

/--
In its last millisecond it can be used again.
-/
theorem not_challengesSingleUse : ¬ ChallengesSingleUse fun _ => True := by
  intro h
  have honce := h .samePrime [useAt 180000, useAt 180000] {} (by decide) (by simp)
    solvedChallenge.signature
  have hfirst := outcome_useAt 180000 {} (Nat.le_refl _) (by simp)
  have hsecond := outcome_useAt 180000 ((useAt 180000).run .samePrime {}).2 (Nat.le_refl _) (by
    intro old hold
    rw [hfirst, AList.lookup_insert, expiresAt_solvedChallenge] at hold
    exact Nat.le_of_eq (Option.some.inj hold).symm)
  have huses : VdfCall.uses solvedChallenge.signature (useAt 180000, .ok ()) = true := by
    rw [VdfCall.uses, decide_eq_true_eq]
    rfl
  rw [Calls.play_cons, Calls.play_cons, Calls.play_nil, hsecond, hfirst] at honce
  -- Adding up here would have the kernel compare the signatures as texts.
  rw [List.countP_eq_length.2 (by simp [huses])] at honce
  contradiction

end LastMillisecond

end Lqxp
