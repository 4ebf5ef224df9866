import Lqxp.Core.Gates

/-!
This module contains the one-time keys of the post-quantum exchange.
-/

namespace Lqxp

def pqcKeyTtlMs : Nat := 3 * 60 * 1000

structure PqcPublicKey where
  keyId : String
  ekHex : String
  deriving DecidableEq

structure PqcCiphertext where
  keyId : String
  ctHex : String
  deriving DecidableEq

/--
Whether a byte continues a character of several bytes.
-/
def isContinuation (b : UInt8) : Bool := 0x80 ≤ b && b < 0xC0

def hexDigitOfByte (b : UInt8) : Option Nat :=
  if 0x30 ≤ b && b ≤ 0x39 then some (b.toNat - 0x30)
  else if 0x61 ≤ b && b ≤ 0x66 then some (b.toNat - 0x61 + 10)
  else if 0x41 ≤ b && b ≤ 0x46 then some (b.toNat - 0x41 + 10)
  else none

/--
Parse two characters as a number to the base 16, the way the standard library does: the first of them
may also be a plus sign.
-/
def parseHexByte (hi lo : UInt8) : Option UInt8 :=
  if hi = 0x2B then
    (hexDigitOfByte lo).map Nat.toUInt8
  else
    (hexDigitOfByte hi).bind fun h => (hexDigitOfByte lo).map fun l => (h * 16 + l).toUInt8

/--
Decode pairs of digits. An error stands for a slice that ends inside a character, at which the source
panics.
-/
def hexDecode (value : String) : Except Unit (Option (List UInt8)) :=
  if Text.len value % 2 ≠ 0 then .ok none else go (utf8 value)
where
  go : List UInt8 → Except Unit (Option (List UInt8))
    | hi :: lo :: rest =>
      if rest.head?.any isContinuation then
        .error ()
      else
        match parseHexByte hi lo with
        | none => .ok none
        | some b => (go rest).map fun bytes => bytes.map (b :: ·)
    | _ => .ok (some [])

variable (c : Crypto)

/--
The clock is read once for the expiry of the key, and once more when the store is locked.
-/
def issuePqcChallenge (expiryNow now : Nat) (keyIdBits : BitVec 128) (dk ek : List UInt8)
    : Gated PqcPublicKey := do
  let keyId := Text.hexDigits keyIdBits.toNat
  modify fun gates =>
    if 10000 < gates.pqcActiveKeys.size then
      { gates with pqcActiveKeys := gates.pqcActiveKeys.retain fun _ key => now < key.expiresAt }
    else
      gates
  modify fun gates =>
    { gates with pqcActiveKeys :=
        gates.pqcActiveKeys.insert keyId { dk, expiresAt := expiryNow + pqcKeyTtlMs } }
  return { keyId, ekHex := hexEncode ek }

def verifyAndDecapsulatePqc (now : Nat) (ct : PqcCiphertext) : Gated (List UInt8) := do
  let gates ← get
  let some sk := gates.pqcActiveKeys.lookup ct.keyId
    | throw (.badRequest "PQC ephemeral quantum challenge expired or already consumed.")
  set { gates with pqcActiveKeys := gates.pqcActiveKeys.erase ct.keyId }
  refuseIf (sk.expiresAt < now) (.badRequest "PQC ephemeral quantum challenge expired.")
  match hexDecode ct.ctHex with
  | .error () => throw .internal
  | .ok none => throw (.badRequest "Malformed ML-KEM ciphertext encoding.")
  | .ok (some ctBytes) =>
    match c.decapsulate sk.dk ctBytes with
    | none => throw (.badRequest "ML-KEM decapsulation failed.")
    | some shared => return shared

end Lqxp
