import Lqxp.Core.Gates

/-!
This module contains the anonymous quota tokens and their nullifiers.
-/

namespace Lqxp

def epochWindowMs : Nat := 15000

def nullifierTtlMs : Nat := 3 * 60 * 1000

structure EpochQuotaToken where
  epoch : Nat
  ticket : String
  signature : String
  deriving DecidableEq

variable (c : Crypto)

def signTicket (ticketData : String) : String := c.rlnMac.sign ticketData

def verifyTicketSignature (ticketData signature : String) : Bool :=
  c.rlnMac.sign ticketData = signature

def currentEpoch (now : Nat) : Nat := now / epochWindowMs

def generateQuotaToken (now : Nat) (nonce : BitVec 128) : EpochQuotaToken :=
  let epoch := currentEpoch now
  let nonceHex := Text.hexDigits nonce.toNat
  let ticket := signTicket c (Text.join ':' [toString epoch, nonceHex])
  { epoch, ticket, signature := signTicket c (Text.join ':' [toString epoch, ticket]) }

def computeNullifier (ticket : String) (epoch : Nat) (action : String) : String :=
  hexEncode <| Vector.toList <| c.sha256 <|
    utf8 "qxprotocol_rln_nullifier:" ++ utf8 ticket ++ utf8 ":" ++ toBytesBE 8 epoch ++ utf8 ":"
      ++ utf8 action

/--
The clock is read twice: once for the memory of nullifiers, and once for the epoch.
-/
def verifyAndConsumeNullifier (now epochNow : Nat) (token : EpochQuotaToken)
    (nullifier expectedAction : String) : Gated Unit := do
  let currEpoch := currentEpoch epochNow
  refuseIf (currEpoch + 1 < token.epoch ∨ 4 < currEpoch - token.epoch)
    (.badRequest "Anonymous quota token expired. Please obtain a fresh token.")
  let data := Text.join ':' [toString token.epoch, token.ticket]
  refuseIf (verifyTicketSignature c data token.signature = false)
    (.badRequest "Invalid anonymous quota token signature.")
  let expectedNullifier := computeNullifier c token.ticket token.epoch expectedAction
  refuseIf (nullifier ≠ expectedNullifier) (.badRequest "Malformed rate-limiting nullifier.")
  let gates ← get
  let (fresh, rlnNullifiers) :=
    Spending.spendOnce 10000 now nullifier (now + nullifierTtlMs) gates.rlnNullifiers
  set { gates with rlnNullifiers }
  refuseIf (fresh = false)
    (.tooManyRequests "Rate limit quota exceeded for this epoch. Please wait.")

end Lqxp
