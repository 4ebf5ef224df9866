import Lqxp.Core.Crypto
import Lqxp.Core.Result
import Lqxp.Core.Security
import Lqxp.Data.Spending
import Lqxp.Services.Phantom.Store

/-!
This module contains the state behind the gates of the server: what has been spent, what has been issued,
and the mailbox that they guard. All of it lives in memory only.
-/

namespace Lqxp

structure PqcSecretKey where
  dk : List UInt8
  expiresAt : Nat
  deriving DecidableEq

structure Gates where
  /-- The nullifiers that have been used, each with the time until which it is remembered. -/
  rlnNullifiers : AssocMap String Nat := ∅
  vdfConsumed : AssocMap String Nat := ∅
  pqcActiveKeys : AssocMap String PqcSecretKey := ∅
  /-- The cap tokens that can still be spent, with their expiry; the source calls them consumed. -/
  capTokens : AssocMap String Nat := ∅
  depositTokens : AssocMap String Nat := ∅
  rateLimits : AssocMap String RateLimitBucket := ∅
  phantomStore : DeadDropStore := {}

/--
A call that may fail. What it has done to the state before it fails stays done.
-/
abbrev Gated (α : Type) := EStateM ApiError Gates α

def Gated.ofResult {α : Type} (res : ApiResult α) : Gated α :=
  match res with
  | .ok a => pure a
  | .error err => throw err

def refuseIf (cond : Prop) [Decidable cond] (err : ApiError) : Gated Unit :=
  if cond then throw err else pure ()

section Running

variable {α : Type} {f : Unit → Gated α} {s : Gates}

@[simp]
theorem refuseIf_bind (cond : Prop) [Decidable cond] (err : ApiError)
    : (refuseIf cond err >>= f) s = if cond then .error err s else f () s := by
  rw [refuseIf]
  split <;> rfl

@[simp]
theorem refuseIf_run (cond : Prop) [Decidable cond] (err : ApiError)
    : refuseIf cond err s = if cond then .error err s else .ok () s := by
  rw [refuseIf]
  split <;> rfl

@[simp]
theorem ofResult_bind {β : Type} (res : ApiResult β) (f : β → Gated α)
    : (Gated.ofResult res >>= f) s
        = match res with
          | .ok b => f b s
          | .error err => .error err s := by
  cases res <;> rfl

@[simp]
theorem get_bind (f : Gates → Gated α) : ((get : Gated Gates) >>= f) s = f s s := rfl

@[simp]
theorem set_bind (s' : Gates) : ((set s' : Gated Unit) >>= f) s = f () s' := rfl

@[simp]
theorem modify_bind (g : Gates → Gates) : ((modify g : Gated Unit) >>= f) s = f () (g s) := rfl

@[simp]
theorem throw_run (err : ApiError) : (throw err : Gated α) s = .error err s := rfl

@[simp]
theorem pure_run (a : α) : (pure a : Gated α) s = .ok a s := rfl

end Running

end Lqxp
