import Lqxp.Core.Cap
import Lqxp.Prog.Calls
import Lqxp.Services.PrivacyPass

/-!
This module contains the deposit of an envelope, with all the gates in front of it.
-/

namespace Lqxp

def maxCtLen : Nat := 96 * 1024

def maxGateTokenLen : Nat := 4096

def validBuckets : List Nat := [4096, 16384, 65536]

inductive PhantomGateMode where
  | pass
  | cap
  deriving DecidableEq

structure PhantomGate where
  mode : PhantomGateMode
  token : String := ""
  nullifier : String := ""
  quotaToken : Option EpochQuotaToken := none

structure PhantomDepositRequest where
  envelope : PhantomEnvelope
  gate : PhantomGate

/--
The readings of the clock of one deposit, in the order of their use, and the order in which the hash maps
of the mailbox yield their entries.
-/
structure DepositEnv where
  rateNow : Nat
  dayNow : Nat
  nullifierNow : Nat
  epochNow : Nat
  tokenNow : Nat
  storeNow : Nat
  order : IterOrder := .insertion

def DepositEnv.times (e : DepositEnv) : List Nat :=
  [e.rateNow, e.dayNow, e.nullifierNow, e.epochNow, e.tokenNow, e.storeNow]

def isHexDigit (c : Char) : Bool := c.isDigit || ('a' ≤ c && c ≤ 'f') || ('A' ≤ c && c ≤ 'F')

def isHex64 (value : String) : Bool := Text.len value = 64 && value.toList.all isHexDigit

variable (c : Crypto)

/--
The tag under which a recipient refuses a sender.
-/
def blockTag (recipientFp senderHint : String) : String :=
  hexEncode (c.sha256 (utf8 recipientFp ++ utf8 senderHint)).toList

def validateEnvelope (envelope : PhantomEnvelope) : ApiResult Unit := do
  if envelope.pv ≠ 1 then
    throw (.badRequest "Unsupported envelope version.")
  if !isHex64 envelope.slotId || !isHex64 envelope.recipientFp || !isHex64 envelope.senderHint then
    throw (.badRequest "Malformed envelope identifier.")
  if !validBuckets.contains envelope.bucket then
    throw (.badRequest "Invalid envelope bucket.")
  if envelope.ct = "" || maxCtLen < Text.len envelope.ct then
    throw (.badRequest "Envelope ciphertext out of bounds.")

def validateGate (gate : PhantomGate) : ApiResult Unit := do
  if gate.nullifier ≠ "" && !isHex64 gate.nullifier then
    throw (.badRequest "Malformed gate nullifier.")
  if maxGateTokenLen < Text.len gate.token then
    throw (.badRequest "Gate token out of bounds.")

def utcDay (now : Nat) : Nat := now / 86400000

def depositAction (day : Nat) : String := "phantom_deposit:" ++ toString day

/--
Count a hit against a limit, and refuse the request when it is over it.
-/
def rateLimit (now : Nat) (key : String) (limit windowMs : Nat) (err : ApiError) : Gated Unit := do
  let gates ← get
  let (hit, rateLimits) := rateLimitHit now key limit windowMs gates.rateLimits
  set { gates with rateLimits }
  refuseIf (hit = true) err

/--
The part of a deposit that spends nothing. `isBlockedTag` is what the accounts answer; it gives back the
quota token.
-/
def admitDeposit (isBlockedTag : String → ApiResult Bool) (e : DepositEnv) (req : PhantomDepositRequest)
    : Gated EpochQuotaToken := do
  rateLimit e.rateNow "phantom:deposit:global" 20 1000 (.tooManyRequests "Deposit rate limit exceeded.")
  .ofResult (validateEnvelope req.envelope)
  .ofResult (validateGate req.gate)
  let blocked ← .ofResult (isBlockedTag (blockTag c req.envelope.recipientFp req.envelope.senderHint))
  refuseIf (blocked = true) (.forbidden "Deposit rejected.")
  match req.gate.quotaToken with
  | none => throw (.badRequest "Missing anonymous quota token.")
  | some quotaToken => return quotaToken

def consumeGateToken (now : Nat) (gate : PhantomGate) : Gated Unit :=
  match gate.mode with
  | .cap => verifyAndConsumeCapToken c now gate.token "phantom"
  | .pass => consumeDepositToken c now gate.token

def deposit (isBlockedTag : String → ApiResult Bool) (e : DepositEnv) (req : PhantomDepositRequest)
    : Gated Unit := do
  let quotaToken ← admitDeposit c isBlockedTag e req
  verifyAndConsumeNullifier c e.nullifierNow e.epochNow quotaToken req.gate.nullifier
    (depositAction (utcDay e.dayNow))
  consumeGateToken c e.tokenNow req.gate
  let gates ← get
  let (stored, phantomStore) := gates.phantomStore.tryDeposit e.order req.envelope e.storeNow
  set { gates with phantomStore }
  refuseIf (stored = false) (.tooManyRequests "Dead-drop memory budget reached.")

section Admission

variable {c}

theorem admitDeposit_eq (isBlockedTag : String → ApiResult Bool) (e : DepositEnv)
    (req : PhantomDepositRequest) (gates : Gates)
    : ∃ rateLimits, admitDeposit c isBlockedTag e req gates
        = if (rateLimitHit e.rateNow "phantom:deposit:global" 20 1000 gates.rateLimits).1 = true then
            .error (.tooManyRequests "Deposit rate limit exceeded.") { gates with rateLimits }
          else
            match validateEnvelope req.envelope, validateGate req.gate,
              isBlockedTag (blockTag c req.envelope.recipientFp req.envelope.senderHint) with
            | .error err, _, _ => .error err { gates with rateLimits }
            | _, .error err, _ => .error err { gates with rateLimits }
            | _, _, .error err => .error err { gates with rateLimits }
            | _, _, .ok true => .error (.forbidden "Deposit rejected.") { gates with rateLimits }
            | _, _, .ok false =>
              match req.gate.quotaToken with
              | none => .error (.badRequest "Missing anonymous quota token.") { gates with rateLimits }
              | some quotaToken => .ok quotaToken { gates with rateLimits } := by
  refine ⟨(rateLimitHit e.rateNow "phantom:deposit:global" 20 1000 gates.rateLimits).2, ?_⟩
  unfold admitDeposit rateLimit
  simp only [bind_assoc, get_bind, set_bind, refuseIf_bind, ofResult_bind]
  split
  . rfl
  . cases validateEnvelope req.envelope with
    | error err => rfl
    | ok u =>
      cases validateGate req.gate with
      | error err => rfl
      | ok u' =>
        cases isBlockedTag (blockTag c req.envelope.recipientFp req.envelope.senderHint) with
        | error err => rfl
        | ok blocked =>
          cases blocked with
          | true => rfl
          | false => cases req.gate.quotaToken <;> rfl

theorem deposit_eq_error {isBlockedTag : String → ApiResult Bool} {e : DepositEnv}
    {req : PhantomDepositRequest} {gates gates' : Gates} {err : ApiError}
    (h : admitDeposit c isBlockedTag e req gates = .error err gates')
    : deposit c isBlockedTag e req gates = .error err gates' := by
  rw [deposit]
  exact Calls.bind_eq_error h _

end Admission

end Lqxp
