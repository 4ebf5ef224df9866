import Lqxp.Core.Pqc
import Lqxp.Core.Rln
import Lqxp.Core.Vdf

/-!
This module contains the captcha: its challenges, their redemption for a token, and the spending of such
tokens.
-/

namespace Lqxp

def capChallengeTtlMs : Nat := 3 * 60 * 1000

def capTokenTtlMs : Nat := 5 * 60 * 1000

def minHumanInteractionMs : Nat := 250

structure CapChallenge where
  challengeId : String
  scope : String
  issuedAt : Nat
  expiresAt : Nat
  vdf : VdfChallenge
  quotaToken : EpochQuotaToken
  pqcKey : PqcPublicKey
  signature : String
  deriving DecidableEq

structure CapInstrumentation where
  interactionTimeMs : Option Nat := none
  webdriver : Option Bool := none
  deriving DecidableEq

structure CapRedeemRequest where
  challengeId : String
  scope : String
  challenge : CapChallenge
  vdfProof : VdfProof
  nullifier : String
  pqcCiphertext : PqcCiphertext
  instrumentation : Option CapInstrumentation := none

structure CapRedeemResponse where
  success : Bool
  capToken : String
  expiresAt : Nat
  deriving DecidableEq

/--
The readings of the clock and the random numbers of one issue of a challenge, in the order of their use.
-/
structure ChallengeEnv where
  challengeIdBits : BitVec 128
  now : Nat
  vdfNow : Nat
  saltBits : BitVec 64
  epochNow : Nat
  nonce : BitVec 128
  keyIdBits : BitVec 128
  dk : List UInt8
  ek : List UInt8
  pqcExpiryNow : Nat
  pqcNow : Nat

def ChallengeEnv.times (e : ChallengeEnv) : List Nat :=
  [e.now, e.vdfNow, e.epochNow, e.pqcExpiryNow, e.pqcNow]

/--
The same for one redemption.
-/
structure RedeemEnv where
  now : Nat
  nullifierNow : Nat
  epochNow : Nat
  vdfVerifyNow : Nat
  vdfNow : Nat
  pqcNow : Nat
  tokenIdBits : BitVec 128

def RedeemEnv.times (e : RedeemEnv) : List Nat :=
  [e.now, e.nullifierNow, e.epochNow, e.vdfVerifyNow, e.vdfNow, e.pqcNow]

def challengeText (challengeId scope : String) (issuedAt expiresAt : Nat) (vdfSignature keyId : String)
    : String :=
  Text.join ':' [challengeId, scope, toString issuedAt, toString expiresAt, vdfSignature, keyId]

def CapChallenge.text (challenge : CapChallenge) : String :=
  challengeText challenge.challengeId challenge.scope challenge.issuedAt challenge.expiresAt
    challenge.vdf.signature challenge.pqcKey.keyId

def tokenText (tokenId scope : String) (expiresAt : Nat) : String :=
  Text.join ':' [tokenId, scope, toString expiresAt]

variable (c : Crypto)

def generateCapChallenge (e : ChallengeEnv) (scope : String) (target : Option String)
    : Gated CapChallenge := do
  let challengeId := Text.hexDigits e.challengeIdBits.toNat
  let expiresAt := e.now + capChallengeTtlMs
  let vdf := generateVdfChallenge c e.vdfNow e.saltBits target none
  let quotaToken := generateQuotaToken c e.epochNow e.nonce
  let pqcKey ← issuePqcChallenge e.pqcExpiryNow e.pqcNow e.keyIdBits e.dk e.ek
  let signature :=
    c.capMac.sign (challengeText challengeId scope e.now expiresAt vdf.signature pqcKey.keyId)
  return { challengeId, scope, issuedAt := e.now, expiresAt, vdf, quotaToken, pqcKey, signature }

/--
The check of the signature of a challenge that a client sends back.
-/
def CapChallenge.signatureValid (challenge : CapChallenge) : Bool :=
  c.capMac.sign challenge.text = challenge.signature

def capTokenOf (tokenId scope : String) (expiresAt : Nat) : String :=
  Text.join '.' ["cap", tokenId, toString expiresAt, c.capMac.sign (tokenText tokenId scope expiresAt)]

def redeemCapChallenge (e : RedeemEnv) (req : CapRedeemRequest) : Gated CapRedeemResponse := do
  refuseIf (req.challengeId ≠ req.challenge.challengeId) (.badRequest "CAPTCHA challenge ID mismatch.")
  refuseIf (req.challenge.expiresAt < e.now) (.badRequest "CAPTCHA challenge expired.")
  refuseIf (req.challenge.scope ≠ req.scope) (.badRequest "CAPTCHA challenge scope mismatch.")
  refuseIf (req.challenge.signatureValid c = false) (.badRequest "Invalid CAPTCHA challenge signature.")
  verifyAndConsumeNullifier c e.nullifierNow e.epochNow req.challenge.quotaToken req.nullifier req.scope
  verifyAndConsumeVdf c e.vdfVerifyNow e.vdfNow req.challenge.vdf req.vdfProof none
  let _sharedSecret ← verifyAndDecapsulatePqc c e.pqcNow req.pqcCiphertext
  refuseIf (req.instrumentation.any (·.webdriver = some true))
    (.badRequest "Automated browser execution detected.")
  refuseIf (req.instrumentation.any (·.interactionTimeMs.any (· < minHumanInteractionMs)))
    (.badRequest "Interaction time below human threshold.")
  let tokenId := Text.hexDigits e.tokenIdBits.toNat
  let tokenExpires := e.now + capTokenTtlMs
  let capToken := capTokenOf c tokenId req.scope tokenExpires
  modify fun gates =>
    { gates with capTokens :=
        (gates.capTokens.retain fun _ exp => e.now < exp).insert capToken tokenExpires }
  return { success := true, capToken, expiresAt := tokenExpires }

def verifyAndConsumeCapToken (now : Nat) (token expectedScope : String) : Gated Unit := do
  let parts := Text.splitOn '.' token
  match parts with
  | [kind, tokenId, expiresStr, sig] =>
    refuseIf (kind ≠ "cap") (.badRequest "Invalid CAPTCHA token format.")
    let some expiresAt := Text.parseU64 expiresStr
      | throw (.badRequest "Invalid CAPTCHA token timestamp.")
    refuseIf (expiresAt < now) (.badRequest "CAPTCHA token expired. Please solve again.")
    refuseIf (c.capMac.sign (tokenText tokenId expectedScope expiresAt) ≠ sig)
      (.badRequest "Invalid CAPTCHA token signature.")
    let gates ← get
    set { gates with capTokens := gates.capTokens.erase token }
    refuseIf ((gates.capTokens.lookup token).any (now < ·) = false)
      (.badRequest "CAPTCHA token has already been consumed or is invalid.")
  | _ => throw (.badRequest "Invalid CAPTCHA token format.")

end Lqxp
