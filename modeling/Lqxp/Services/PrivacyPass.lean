import Lqxp.Core.Gates

/-!
This module contains the deposit tokens, which stand in for a redeemed pass.
-/

namespace Lqxp

def passDepositTokenTtlMs : Nat := 5 * 60 * 1000

variable (c : Crypto)

def depositTokenText (tokenId : String) (expiresAt : Nat) : String :=
  Text.join ':' [tokenId, toString expiresAt]

def depositTokenOf (tokenId : String) (expiresAt : Nat) : String :=
  Text.join '.' ["pass", tokenId, toString expiresAt, c.passMac.sign (depositTokenText tokenId expiresAt)]

def issueDepositToken (now : Nat) (tokenIdBits : BitVec 128) : Gated String := do
  let tokenId := Text.hexDigits tokenIdBits.toNat
  let expiresAt := now + passDepositTokenTtlMs
  let token := depositTokenOf c tokenId expiresAt
  modify fun gates => { gates with depositTokens := gates.depositTokens.insert token expiresAt }
  return token

def consumeDepositToken (now : Nat) (token : String) : Gated Unit := do
  let parts := Text.splitOn '.' token
  match parts with
  | [kind, tokenId, expiresStr, signature] =>
    refuseIf (kind ≠ "pass") (.badRequest "Invalid deposit token format.")
    let some expiresAt := Text.parseU64 expiresStr
      | throw (.badRequest "Invalid deposit token timestamp.")
    refuseIf (expiresAt < now) (.badRequest "Deposit token expired.")
    refuseIf (c.passMac.sign (depositTokenText tokenId expiresAt) ≠ signature)
      (.badRequest "Invalid deposit token signature.")
    let gates ← get
    let live := gates.depositTokens.retain fun _ exp => now < exp
    set { gates with depositTokens := live.erase token }
    refuseIf ((live.lookup token).any (now < ·) = false)
      (.badRequest "Deposit token already consumed or invalid.")
  | _ => throw (.badRequest "Invalid deposit token format.")

end Lqxp
