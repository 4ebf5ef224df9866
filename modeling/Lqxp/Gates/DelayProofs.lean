import Mathlib.FieldTheory.Finite.Basic
import Mathlib.Tactic.NormNum.Prime
import Lqxp.Gates.DelayChallenges

/-!
This module contains the completeness of the delay proofs: whoever has done the squarings passes the check. The test of
candidates for primality rejects no prime, so that the search for a prime passes none over.
-/

namespace Lqxp

section Powers

theorem modpow_go_eq (modulus fuel : Nat)
    : ∀ base exp, exp < 2 ^ fuel → modpow.go modulus fuel base exp = base ^ exp % modulus := by
  induction fuel with
  | zero =>
    intro base exp hlt
    obtain rfl : exp = 0 := by omega
    rfl
  | succ fuel ih =>
    intro base exp hlt
    have hhalf : exp / 2 < 2 ^ fuel := by
      rw [Nat.pow_succ] at hlt
      omega
    have hsplit : exp = 2 * (exp / 2) + exp % 2 := (Nat.div_add_mod exp 2).symm
    have hgo : modpow.go modulus fuel (base * base % modulus) (exp / 2) = base ^ (2 * (exp / 2)) % modulus := by
      rw [ih _ _ hhalf, ← Nat.pow_mod, ← Nat.pow_two, ← Nat.pow_mul]
    rw [modpow.go, hgo]
    by_cases hzero : exp = 0
    . rw [if_pos hzero, hzero, Nat.pow_zero]
    . rw [if_neg hzero]
      dsimp only
      split
      next hodd =>
        -- the last bit of the exponent is set
        rw [Nat.mul_mod_mod, ← Nat.pow_succ']
        congr 2
        omega
      next heven =>
        congr 2
        omega

theorem modpow_eq (base exp modulus : Nat) : modpow base exp modulus = base ^ exp % modulus :=
  modpow_go_eq modulus _ base exp (Nat.lt_log2_self)

theorem pow_quotient_mul_pow_rest {M : Type} [Monoid M] (x : M) (exp l : Nat)
    : (x ^ (exp / l)) ^ l * x ^ (exp % l) = x ^ exp := by
  rw [← pow_mul, ← pow_add, Nat.div_add_mod']

end Powers

section Moduli

variable (c : Crypto) (modulus : Nat)

def vdfEquationFor (x y pi t : Nat) : Bool :=
  match hashToPrime c x y with
  | none => false
  | some l =>
    let r := modpow 2 t l
    modpow pi l modulus * modpow x r modulus % modulus = y

def verifyVdfFor (now : Nat) (challenge : VdfChallenge) (proof : VdfProof)
    (expectedTarget : Option String) : ApiResult Unit := do
  if challenge.expiresAt < now then
    throw (.badRequest "VDF security challenge expired.")
  if c.vdfMac.sign challenge.content ≠ challenge.signature then
    throw (.badRequest "Invalid VDF security challenge signature.")
  if expectedTarget.any (challenge.targetHash ≠ hashTarget c ·) then
    throw (.badRequest "VDF security challenge was not bound to this target username.")
  if 1024 < Text.len challenge.x ∨ 1024 < Text.len proof.y ∨ 1024 < Text.len proof.pi then
    throw (.badRequest "VDF parameters exceed size bound.")
  let some x := parseBigHex challenge.x
    | throw (.badRequest "Malformed VDF parameter x.")
  let some y := parseBigHex proof.y
    | throw (.badRequest "Malformed VDF result y.")
  let some pi := parseBigHex proof.pi
    | throw (.badRequest "Malformed VDF proof pi.")
  if x < 2 ∨ y < 2 ∨ pi < 2 ∨ modulus ≤ x ∨ modulus ≤ y ∨ modulus ≤ pi then
    throw (.badRequest "VDF values exceed modulus bound.")
  if vdfEquationFor c modulus x y pi challenge.t = false then
    throw (.badRequest "Invalid VDF delay proof.")

theorem verifyVdfFor_getModulus : verifyVdfFor c getModulus = verifyVdf c := rfl

end Moduli

section Completeness

variable {c : Crypto} {modulus x t l now : Nat} {challenge : VdfChallenge} {expectedTarget : Option String}

def honestResult (modulus x t : Nat) : Nat := x ^ 2 ^ t % modulus

def honestQuotient (modulus x t l : Nat) : Nat := x ^ (2 ^ t / l) % modulus

def honestProof (modulus x t l : Nat) : VdfProof :=
  { y := Text.hexDigits (honestResult modulus x t), pi := Text.hexDigits (honestQuotient modulus x t l) }

theorem vdfEquationFor_honest (hprime : hashToPrime c x (honestResult modulus x t) = some l)
    : vdfEquationFor c modulus x (honestResult modulus x t) (honestQuotient modulus x t l) t = true := by
  rw [vdfEquationFor, hprime]
  simp only [decide_eq_true_eq, modpow_eq]
  calc honestQuotient modulus x t l ^ l % modulus * (x ^ (2 ^ t % l) % modulus) % modulus
    _ = (x ^ (2 ^ t / l)) ^ l * x ^ (2 ^ t % l) % modulus := by
      rw [honestQuotient, ← Nat.pow_mod, ← Nat.mul_mod]
    _ = honestResult modulus x t := by
      rw [pow_quotient_mul_pow_rest, honestResult]

/--
The proof passes once what has nothing to do with the squarings is in order.
-/
theorem verifyVdfFor_honestProof (hmodulus : 3 < modulus) (hx : 2 ≤ x) (hlt : x < modulus)
    (hprime : hashToPrime c x (honestResult modulus x t) = some l)
    (hy : 2 ≤ honestResult modulus x t) (hpi : 2 ≤ honestQuotient modulus x t l)
    (helement : challenge.x = Text.hexDigits x) (hiterations : challenge.t = t)
    (hfresh : now ≤ challenge.expiresAt) (hsigned : c.vdfMac.sign challenge.content = challenge.signature)
    (htarget : ∀ target, expectedTarget = some target → challenge.targetHash = hashTarget c target)
    (hsizes : Text.len challenge.x ≤ 1024 ∧ Text.len (honestProof modulus x t l).y ≤ 1024
      ∧ Text.len (honestProof modulus x t l).pi ≤ 1024)
    : verifyVdfFor c modulus now challenge (honestProof modulus x t l) expectedTarget = .ok () := by
  have hpositive : 0 < modulus := by omega
  have hylt : honestResult modulus x t < modulus := Nat.mod_lt _ hpositive
  have hpilt : honestQuotient modulus x t l < modulus := Nat.mod_lt _ hpositive
  have hbound : expectedTarget.any (challenge.targetHash ≠ hashTarget c ·) = false := by
    cases expectedTarget with
    | none => rfl
    | some target => simp [htarget target rfl]
  have hparsex : parseBigHex challenge.x = some x := by rw [helement, parseBigHex_hexDigits]
  have hparsey : parseBigHex (honestProof modulus x t l).y = some (honestResult modulus x t) :=
    parseBigHex_hexDigits _
  have hparsepi : parseBigHex (honestProof modulus x t l).pi = some (honestQuotient modulus x t l) :=
    parseBigHex_hexDigits _
  have hequation : vdfEquationFor c modulus x (honestResult modulus x t) (honestQuotient modulus x t l)
      challenge.t = true := by
    rw [hiterations]
    exact vdfEquationFor_honest hprime
  rw [verifyVdfFor, if_neg (by omega), if_neg (by simp [hsigned]), if_neg (Bool.eq_false_iff.1 hbound), if_neg (by omega)]
  simp only [hparsex, hparsey, hparsepi, hequation]
  rw [if_neg (by omega)]
  rfl

end Completeness

section SmallModulus

/--
A challenge for the element 3 and 128 squarings modulo 7.
-/
def smallChallenge : VdfChallenge :=
  { modulus := "7", x := "3", t := 128, targetHash := "none", salt := "5"
    signature := Crypto.samePrime.vdfMac.sign (vdfContent 0 128 "none" "5" "3" 180000)
    issuedAt := 0, expiresAt := 180000 }

theorem honestResult_small : honestResult 7 3 128 = 4 := by
  rw [honestResult, ← modpow_eq]
  decide +kernel

theorem honestQuotient_small : honestQuotient 7 3 128 (2 ^ 127 + 29) = 3 := by
  rw [honestQuotient, ← modpow_eq]
  decide +kernel

theorem verifyVdfFor_honestProof_small
    : verifyVdfFor .samePrime 7 5 smallChallenge (honestProof 7 3 128 (2 ^ 127 + 29)) none = .ok () :=
  verifyVdfFor_honestProof (by decide) (by decide) (by decide) (hashToPrime_samePrime _ _)
    (by rw [honestResult_small]; decide) (by rw [honestQuotient_small]; decide) rfl rfl (by decide) rfl
    (by simp)
    (by
      rw [honestProof, honestResult_small, honestQuotient_small]
      decide)

end SmallModulus

end Lqxp

namespace Lqxp

section Roots

theorem eq_one_or_exists_neg_one {F : Type} [Field F] {y : F} {s : Nat} (h : y ^ 2 ^ s = 1)
    : y = 1 ∨ ∃ r, r < s ∧ y ^ 2 ^ r = -1 := by
  induction s with
  | zero =>
    rw [pow_zero, pow_one] at h
    exact .inl h
  | succ s ih =>
    rw [pow_succ, pow_mul, pow_two, mul_self_eq_one_iff] at h
    rcases h with hone | hneg
    . rcases ih hone with hy | ⟨r, hr, hneg⟩
      . exact .inl hy
      . exact .inr ⟨r, Nat.lt_succ_of_lt hr, hneg⟩
    . exact .inr ⟨s, Nat.lt_succ_self s, hneg⟩

end Roots

section Rounds

variable {n : Nat}

theorem splitTwos_spec {fuel d s : Nat} (hpos : 0 < d) (hfuel : d ≤ fuel)
    : (splitTwos fuel d s).1 % 2 = 1 ∧ (splitTwos fuel d s).1 * 2 ^ (splitTwos fuel d s).2 = d * 2 ^ s := by
  induction fuel generalizing d s with
  | zero => omega
  | succ fuel ih =>
    rw [splitTwos]
    split
    next heven =>
      obtain ⟨hodd, hpow⟩ := ih (d := d / 2) (s := s + 1) (by omega) (by omega)
      refine ⟨hodd, ?_⟩
      rw [hpow, Nat.pow_succ', ← Nat.mul_assoc, Nat.div_mul_cancel (Nat.dvd_of_mod_eq_zero heven)]
    next hodd => exact ⟨by omega, rfl⟩

theorem trialDivision_of_prime (hn : n.Prime) {primes : List Nat} (hprimes : ∀ small ∈ primes, 1 < small) {answer : Bool}
    (h : trialDivision n primes = some answer) : answer = true := by
  induction primes with
  | nil => contradiction
  | cons small primes ih =>
    obtain ⟨hsmall, hprimes⟩ := List.forall_mem_cons.1 hprimes
    rw [trialDivision] at h
    split at h
    . exact (Option.some.inj h).symm
    next hne =>
      split at h
      next hmod =>
        rcases hn.eq_one_or_self_of_dvd small (Nat.dvd_of_mod_eq_zero hmod) with hone | hself
        . omega
        . exact absurd hself.symm hne
      . exact ih hprimes h

theorem squaresToMinusOne_of_pow {rounds r x : Nat} (hpos : 0 < r) (hr : r ≤ rounds) (h : x ^ 2 ^ r % n = n - 1)
    : squaresToMinusOne n rounds x = true := by
  induction rounds generalizing r x with
  | zero => omega
  | succ rounds ih =>
    simp only [squaresToMinusOne, Bool.or_eq_true, decide_eq_true_eq, modpow_eq]
    by_cases hone : r = 1
    . rw [hone, pow_one] at h
      exact .inl h
    . refine .inr (ih (r := r - 1) (by omega) (by omega) ?_)
      rw [← Nat.pow_mod, ← pow_mul, ← pow_succ']
      rwa [Nat.sub_add_cancel hpos]

theorem mod_eq_pred_of_cast (hn : 1 < n) {m : Nat} (h : (m : ZMod n) = -1) : m % n = n - 1 := by
  have hcast : (m : ZMod n) = ((n - 1 : Nat) : ZMod n) := by
    rw [h, Nat.cast_sub (Nat.le_of_lt hn), ZMod.natCast_self, Nat.cast_one, zero_sub]
  have hmod := (ZMod.natCast_eq_natCast_iff _ _ _).1 hcast
  rw [Nat.ModEq, Nat.mod_eq_of_lt (show n - 1 < n by omega)] at hmod
  exact hmod

theorem mod_eq_one_of_cast (hn : 1 < n) {m : Nat} (h : (m : ZMod n) = 1) : m % n = 1 := by
  have hmod := (ZMod.natCast_eq_natCast_iff m 1 n).1 (by rw [h, Nat.cast_one])
  rwa [Nat.ModEq, Nat.mod_eq_of_lt hn] at hmod

theorem passesBase_of_prime (hn : n.Prime) {d s base : Nat} (hds : d * 2 ^ s = n - 1) (hbase : 0 < base)
    : passesBase n d s base = true := by
  have : Fact n.Prime := ⟨hn⟩
  rw [passesBase]
  split
  . rfl
  next hlt =>
    have hne : (base : ZMod n) ≠ 0 := by
      rw [ne_eq, ZMod.natCast_eq_zero_iff]
      exact Nat.not_dvd_of_pos_of_lt hbase (by omega)
    have hfermat : ((base : ZMod n) ^ d) ^ 2 ^ s = 1 := by
      rw [← pow_mul, hds]
      exact ZMod.pow_card_sub_one_eq_one hne
    simp only [Bool.or_eq_true, decide_eq_true_eq, modpow_eq]
    rcases eq_one_or_exists_neg_one hfermat with hone | ⟨r, hr, hneg⟩
    . exact .inl (.inl (mod_eq_one_of_cast hn.one_lt (by rw [Nat.cast_pow, hone])))
    . rcases Nat.eq_zero_or_pos r with rfl | hpos
      . rw [pow_zero, pow_one] at hneg
        exact .inl (.inr (mod_eq_pred_of_cast hn.one_lt (by rw [Nat.cast_pow, hneg])))
      . refine .inr (squaresToMinusOne_of_pow hpos (by omega) ?_)
        rw [← Nat.pow_mod]
        exact mod_eq_pred_of_cast hn.one_lt (by rw [Nat.cast_pow, Nat.cast_pow, hneg])

theorem isProbablePrime_of_prime (hn : n.Prime) : isProbablePrime n = true := by
  rw [isProbablePrime, if_neg (by have := hn.two_le; omega)]
  split
  next answer hanswer => exact trialDivision_of_prime hn (by decide) hanswer
  next hnone =>
    have hpos : 0 < n - 1 := by
      have := hn.two_le
      omega
    have hsplit := (@splitTwos_spec n _ 0 hpos (Nat.sub_le _ _)).2
    rw [pow_zero, Nat.mul_one] at hsplit
    have hbases : ∀ base ∈ smallPrimes, 0 < base := by decide
    exact List.all_eq_true.2 fun base hbase => passesBase_of_prime hn hsplit (hbases base hbase)

end Rounds

section Search

variable (c : Crypto) {x y : Nat}

theorem exists_of_go {fuel start counter : Nat} (hstart : start ≤ counter) (hfuel : counter < start + fuel)
    (hprime : (primeCandidate c x y counter).Prime)
    : ∃ k, start ≤ k ∧ k ≤ counter ∧ hashToPrime.go c x y fuel start = some (primeCandidate c x y k)
        ∧ isProbablePrime (primeCandidate c x y k) = true
        ∧ ∀ j, start ≤ j → j < k → ¬ (primeCandidate c x y j).Prime := by
  induction fuel generalizing start with
  | zero => omega
  | succ fuel ih =>
    rw [hashToPrime.go]
    split
    next haccepted => exact ⟨start, Nat.le_refl _, hstart, rfl, haccepted, fun j hj hlt => absurd hlt (Nat.not_lt_of_le hj)⟩
    next hrejected =>
      have hnot : ¬ (primeCandidate c x y start).Prime := fun h => hrejected (isProbablePrime_of_prime h)
      have hne : start ≠ counter := by
        rintro rfl
        exact hnot hprime
      obtain ⟨k, hle, hk, hgo, haccepted, hskipped⟩ := @ih (start + 1) (by omega) (by omega)
      refine ⟨k, by omega, hk, hgo, haccepted, fun j hj hlt => ?_⟩
      by_cases heq : j = start
      . rwa [heq]
      . exact hskipped j (by omega) hlt

/--
The test ends for every number, and accepts every prime. So the search for a prime among the candidates of 32 bit
counters ends at the first prime at the latest, and at it if the test accepts nothing else before.
-/
theorem isProbablePrime_complete
    : (∀ n, 2 ≤ n → (splitTwos n (n - 1) 0).1 % 2 = 1
        ∧ (splitTwos n (n - 1) 0).1 * 2 ^ (splitTwos n (n - 1) 0).2 = n - 1)
        ∧ (∀ n : Nat, n.Prime → isProbablePrime n = true)
        ∧ ∀ (c : Crypto) (x y counter : Nat), counter < 2 ^ 32 → (primeCandidate c x y counter).Prime →
          (∃ k ≤ counter, hashToPrime c x y = some (primeCandidate c x y k) ∧ ∀ j < k, ¬ (primeCandidate c x y j).Prime)
            ∧ ((∀ j < counter, isProbablePrime (primeCandidate c x y j) = false) →
              hashToPrime c x y = some (primeCandidate c x y counter)) := by
  refine ⟨fun n hn => ?_, fun n => isProbablePrime_of_prime, fun c x y counter hlt hprime => ?_⟩
  . have hsplit := @splitTwos_spec n (n - 1) 0 (by omega) (Nat.sub_le _ _)
    rwa [pow_zero, Nat.mul_one] at hsplit
  . obtain ⟨k, -, hk, hgo, haccepted, hskipped⟩ :=
      @exists_of_go c x y (2 ^ 32) 0 counter (Nat.zero_le counter) (by omega) hprime
    refine ⟨⟨k, hk, hgo, fun j hj => hskipped j (Nat.zero_le j) hj⟩, fun hrejected => ?_⟩
    have hge : counter ≤ k := by
      by_contra hlt
      have := hrejected k (by omega)
      rw [haccepted] at this
      contradiction
    rw [← Nat.le_antisymm hk hge]
    exact hgo

/--
A prime that is none of the small ones.
-/
theorem isProbablePrime_complete_fermat : isProbablePrime 65537 = true :=
  isProbablePrime_complete.2.1 65537 (by norm_num)

end Search

end Lqxp
