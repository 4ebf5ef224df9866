import Mathlib.Data.Nat.Digits.Defs
import Lqxp.Core.Gates
import Lqxp.Websocket.Protocol.Impl.Image

/-!
This module contains the delay challenges: how they are issued, the check of their proofs, and the memory
of the challenges that have been used.
-/

namespace Lqxp

def defaultVdfIterations : Nat := 30000

def vdfTtlMs : Nat := 3 * 60 * 1000

structure VdfChallenge where
  modulus : String
  x : String
  t : Nat
  targetHash : String
  salt : String
  signature : String
  issuedAt : Nat
  expiresAt : Nat
  deriving DecidableEq

structure VdfProof where
  y : String
  pi : String
  deriving DecidableEq

section Arithmetic

/--
The modulus of 1024 bits that all challenges share.
-/
def getModulus : Nat :=
  0xc4193b2a8d3e91f07cb658da841793cf445037d0fa049c636fdb3a726ea7b21802d33454b5df5b5463690d3d52674e2a9b3425ea3f4581f14ec6e19f7e84124991a5db4b4b20a4b3d758f12cb84931a7f0524cb11efaa73d32cb5e09841f39bef8da463e26cb3b9a7c36a43e4980a31ebf9a74070a256920f065365e94b281f3

/--
The power of a number modulo another one, by repeated squaring.
-/
def modpow (base exp modulus : Nat) : Nat := go (exp.log2 + 1) base exp
where
  go : Nat → Nat → Nat → Nat
    | 0, _, _ => 1 % modulus
    | fuel + 1, base, exp =>
      if exp = 0 then
        1 % modulus
      else
        let half := go fuel (base * base % modulus) (exp / 2)
        if exp % 2 = 1 then base * half % modulus else half

def smallPrimes : List Nat := [2, 3, 5, 7, 11, 13, 17, 19, 23, 29, 31, 37]

/--
Whether a number is one of the given primes, or a multiple of one of them; `none` when it is neither.
-/
def trialDivision (n : Nat) : List Nat → Option Bool
  | [] => none
  | small :: primes =>
    if n = small then some true else if n % small = 0 then some false else trialDivision n primes

/--
Halve a number as long as it is even, and count how often.
-/
def splitTwos : Nat → Nat → Nat → Nat × Nat
  | 0, d, s => (d, s)
  | fuel + 1, d, s => if d % 2 = 0 then splitTwos fuel (d / 2) (s + 1) else (d, s)

/--
Square `x` up to `rounds` times, until it is `n - 1`.
-/
def squaresToMinusOne (n : Nat) : Nat → Nat → Bool
  | 0, _ => false
  | rounds + 1, x =>
    let x := modpow x 2 n
    x = n - 1 || squaresToMinusOne n rounds x

def passesBase (n d s base : Nat) : Bool :=
  if n ≤ base then
    true
  else
    let x := modpow base d n
    x = 1 || x = n - 1 || squaresToMinusOne n (s - 1) x

def isProbablePrime (n : Nat) : Bool :=
  if n < 2 then
    false
  else
    match trialDivision n smallPrimes with
    | some answer => answer
    | none =>
      let (d, s) := splitTwos n (n - 1) 0
      smallPrimes.all fun base => passesBase n d s base

/--
The bytes of a number of any size, the most significant one first; there is one byte at least.
-/
def bigToBytesBE (n : Nat) : List UInt8 :=
  if n = 0 then [0] else (Nat.digits 256 n).reverse.map Nat.toUInt8

def bigHexDigit (c : Char) : Option Nat :=
  if '0' ≤ c && c ≤ '9' then some (c.toNat - '0'.toNat)
  else if 'a' ≤ c && c ≤ 'f' then some (c.toNat - 'a'.toNat + 10)
  else if 'A' ≤ c && c ≤ 'F' then some (c.toNat - 'A'.toNat + 10)
  else none

/--
Parse a hexadecimal number of any size. As in the library, one plus sign may lead it, and underscores may
stand behind its first digit.
-/
def parseBigHex (s : String) : Option Nat :=
  let digits :=
    match s.toList with
    | '+' :: '+' :: rest => '+' :: '+' :: rest
    | '+' :: rest => rest
    | digits => digits
  if digits = [] || digits.head? = some '_' then
    none
  else
    (digits.filter (· ≠ '_')).foldlM (fun n digit => (bigHexDigit digit).map (n * 16 + ·)) 0

theorem bigHexDigit_digitChar : ∀ d < 16, bigHexDigit d.digitChar = some d := by decide

theorem foldlM_toDigits (n : Nat)
    : (Nat.toDigits 16 n).foldlM (fun m digit => (bigHexDigit digit).map (m * 16 + ·)) 0 = some n := by
  induction n using Nat.strongRecOn with
  | ind n ih =>
    rw [Nat.toDigits_eq_if (by omega)]
    split
    next hlt => simp [bigHexDigit_digitChar n hlt]
    next hge =>
      rw [List.foldlM_append, ih (n / 16) (by omega)]
      simp only [Option.bind_eq_bind, Option.bind_some, List.foldlM_cons, List.foldlM_nil,
        bigHexDigit_digitChar _ (Nat.mod_lt n (by omega)), Option.map_some, Option.pure_def]
      congr 1
      omega

theorem parseBigHex_hexDigits (n : Nat) : parseBigHex (Text.hexDigits n) = some n := by
  have hplus : '+' ∉ Nat.toDigits 16 n := by
    simpa [Text.hexDigits] using Text.not_mem_hexDigits (c := '+') (by decide) n
  have hunderscore : '_' ∉ Nat.toDigits 16 n := by
    simpa [Text.hexDigits] using Text.not_mem_hexDigits (c := '_') (by decide) n
  have hne : Nat.toDigits 16 n ≠ [] := Nat.toDigits_ne_nil
  have hfilter : (Nat.toDigits 16 n).filter (· ≠ '_') = Nat.toDigits 16 n := by
    rw [List.filter_eq_self]
    intro c hc
    simp only [decide_eq_true_eq]
    rintro rfl
    exact hunderscore hc
  rw [parseBigHex, Text.hexDigits, String.toList_ofList]
  split
  next rest heq => simp [heq] at hplus
  next rest heq => simp [heq] at hplus
  next =>
    have hhead : (Nat.toDigits 16 n).head? ≠ some '_' := fun h => hunderscore (List.mem_of_head? h)
    simp only [hne, hhead, decide_false, Bool.or_self, Bool.false_eq_true, if_false, hfilter]
    exact foldlM_toDigits n

end Arithmetic

variable (c : Crypto)

def normalTarget (target : String) : String := c.toLowercase (Text.trim target)

def hashTarget (target : String) : String :=
  Text.takeChars 16 (hexEncode (c.sha256 (utf8 (normalTarget c target))).toList)

def hashToElement (target salt : String) (modulus : Nat) : Nat :=
  let digest := c.sha256 <|
    utf8 "qxprotocol_vdf_x_element:" ++ utf8 (normalTarget c target) ++ utf8 ":" ++ utf8 salt
  ofBytesBE digest.toList % (modulus - 3) + 2

def primeCandidate (x y counter : Nat) : Nat :=
  let digest := c.sha256 <|
    utf8 "qxprotocol_vdf_prime_l:" ++ bigToBytesBE x ++ utf8 ":" ++ bigToBytesBE y ++ utf8 ":"
      ++ toBytesBE 4 counter
  (ofBytesBE (digest.toList.take 16)) ||| 1 ||| 2 ^ 127

/--
The first prime among the candidates; `none` when the counter of 32 bits runs over before there is one.
-/
def hashToPrime (x y : Nat) : Option Nat := go (2 ^ 32) 0
where
  go : Nat → Nat → Option Nat
    | 0, _ => none
    | fuel + 1, counter =>
      let candidate := primeCandidate c x y counter
      if isProbablePrime candidate then some candidate else go fuel (counter + 1)

def vdfContent (issuedAt t : Nat) (targetHash salt x : String) (expiresAt : Nat) : String :=
  Text.join ':' [toString issuedAt, toString t, targetHash, salt, x, toString expiresAt]

def VdfChallenge.content (challenge : VdfChallenge) : String :=
  vdfContent challenge.issuedAt challenge.t challenge.targetHash challenge.salt challenge.x
    challenge.expiresAt

def generateVdfChallenge (now : Nat) (saltBits : BitVec 64) (target : Option String)
    (iterationsOverride : Option Nat) : VdfChallenge :=
  let expiresAt := now + vdfTtlMs
  let t := iterationsOverride.getD defaultVdfIterations
  let salt := Text.hexDigits saltBits.toNat
  let targetHash := (target.map (hashTarget c)).getD "none"
  let x := Text.hexDigits (hashToElement c (target.getD "") salt getModulus)
  { modulus := Text.hexDigits getModulus, x, t, targetHash, salt
    signature := c.vdfMac.sign (vdfContent now t targetHash salt x expiresAt)
    issuedAt := now, expiresAt }

/--
The equation of a proof for the element `x` and `t` squarings. A call that finds no prime does not return;
here the equation then counts as violated.
-/
def vdfEquation (x y pi t : Nat) : Bool :=
  match hashToPrime c x y with
  | none => false
  | some l =>
    let r := modpow 2 t l
    modpow pi l getModulus * modpow x r getModulus % getModulus = y

def verifyVdf (now : Nat) (challenge : VdfChallenge) (proof : VdfProof)
    (expectedTarget : Option String) : ApiResult Unit := do
  if challenge.expiresAt < now then
    throw (.badRequest "VDF security challenge expired.")
  if c.vdfMac.sign challenge.content ≠ challenge.signature then
    throw (.badRequest "Invalid VDF security challenge signature.")
  if expectedTarget.any (challenge.targetHash ≠ hashTarget c ·) then
    throw (.badRequest "VDF security challenge was not bound to this target username.")
  if 1024 < Text.len challenge.x ∨ 1024 < Text.len proof.y ∨ 1024 < Text.len proof.pi then
    throw (.badRequest "VDF parameters exceed size bound.")
  let some x := parseBigHex challenge.x
    | throw (.badRequest "Malformed VDF parameter x.")
  let some y := parseBigHex proof.y
    | throw (.badRequest "Malformed VDF result y.")
  let some pi := parseBigHex proof.pi
    | throw (.badRequest "Malformed VDF proof pi.")
  if x < 2 ∨ y < 2 ∨ pi < 2 ∨ getModulus ≤ x ∨ getModulus ≤ y ∨ getModulus ≤ pi then
    throw (.badRequest "VDF values exceed modulus bound.")
  if vdfEquation c x y pi challenge.t = false then
    throw (.badRequest "Invalid VDF delay proof.")

/--
The clock is read once for the expiry of the challenge, and once more for the memory of used challenges.
-/
def verifyAndConsumeVdf (verifyNow now : Nat) (challenge : VdfChallenge) (proof : VdfProof)
    (expectedTarget : Option String) : Gated Unit := do
  .ofResult (verifyVdf c verifyNow challenge proof expectedTarget)
  let gates ← get
  let (fresh, vdfConsumed) :=
    Spending.spendOnce 10000 now challenge.signature challenge.expiresAt gates.vdfConsumed
  set { gates with vdfConsumed }
  refuseIf (fresh = false)
    (.tooManyRequests "Security challenge has already been used. Please request a new one.")

end Lqxp
