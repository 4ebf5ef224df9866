import Lqxp.Core.Rln
import Lqxp.Prog.Calls

/-!
This module contains why a nullifier can be used once only: the memory of used nullifiers outlives the
window in which their ticket is accepted.
-/

namespace Lqxp

variable (c : Crypto)

def inWindow (epochNow epoch : Nat) : Prop :=
  epoch ≤ currentEpoch epochNow + 1 ∧ currentEpoch epochNow - epoch ≤ 4

/--
The time from which on the tickets of an epoch are not accepted any more.
-/
def windowEnd (epoch : Nat) : Nat := (epoch + 5) * epochWindowMs

theorem inWindow.lt_windowEnd {epochNow epoch : Nat} (h : inWindow epochNow epoch)
    : epochNow < windowEnd epoch := by
  simp only [inWindow, currentEpoch, epochWindowMs] at h
  simp only [windowEnd, epochWindowMs]
  omega

theorem inWindow.windowEnd_le {now epochNow epoch : Nat} (h : inWindow epochNow epoch)
    (hread : epochNow ≤ now + 90000) : windowEnd epoch ≤ now + nullifierTtlMs := by
  simp only [inWindow, currentEpoch, epochWindowMs] at h
  simp only [windowEnd, epochWindowMs, nullifierTtlMs]
  omega

structure NullifierAccepts (epochNow : Nat) (token : EpochQuotaToken) (nullifier action : String)
    : Prop where
  window : inWindow epochNow token.epoch
  signature : verifyTicketSignature c (Text.join ':' [toString token.epoch, token.ticket]) token.signature
  nullifier : nullifier = computeNullifier c token.ticket token.epoch action

section Steps

variable {c} {now epochNow : Nat} {token : EpochQuotaToken} {nullifier action : String} {s s' : Gates}

theorem verifyAndConsumeNullifier_cases (c : Crypto) (now epochNow : Nat) (token : EpochQuotaToken)
    (nullifier action : String) (s : Gates)
    : (∃ err, verifyAndConsumeNullifier c now epochNow token nullifier action s = .error err s)
        ∨ ∃ fresh rlnNullifiers,
            Spending.spendOnce 10000 now nullifier (now + nullifierTtlMs) s.rlnNullifiers
              = (fresh, rlnNullifiers)
            ∧ NullifierAccepts c epochNow token nullifier action
            ∧ verifyAndConsumeNullifier c now epochNow token nullifier action s
              = if fresh = false then
                  .error (.tooManyRequests "Rate limit quota exceeded for this epoch. Please wait.")
                    { s with rlnNullifiers }
                else
                  .ok () { s with rlnNullifiers } := by
  simp only [verifyAndConsumeNullifier, refuseIf_bind, get_bind, set_bind, refuseIf_run]
  split
  . exact .inl ⟨_, rfl⟩
  next hwindow =>
    split
    . exact .inl ⟨_, rfl⟩
    next hsignature =>
      split
      . exact .inl ⟨_, rfl⟩
      next hnullifier =>
        refine .inr ⟨_, _, rfl, ⟨?_, by simpa using hsignature, by simpa using hnullifier⟩, rfl⟩
        simp only [inWindow]
        omega

theorem verifyAndConsumeNullifier_eq_ok
    (h : verifyAndConsumeNullifier c now epochNow token nullifier action s = .ok () s')
    : NullifierAccepts c epochNow token nullifier action
        ∧ ∃ rlnNullifiers,
            Spending.spendOnce 10000 now nullifier (now + nullifierTtlMs) s.rlnNullifiers
              = (true, rlnNullifiers)
            ∧ s' = { s with rlnNullifiers } := by
  rcases verifyAndConsumeNullifier_cases c now epochNow token nullifier action s with
    ⟨err, herr⟩ | ⟨fresh, rlnNullifiers, hspend, haccepts, hanswer⟩
  . rw [herr] at h
    contradiction
  . rw [hanswer] at h
    cases fresh with
    | false => contradiction
    | true =>
      injection h with _ hs
      exact ⟨haccepts, rlnNullifiers, hspend, hs.symm⟩

theorem remembered_of_ok (hlong : windowEnd token.epoch ≤ now + nullifierTtlMs)
    (h : verifyAndConsumeNullifier c now epochNow token nullifier action s = .ok () s')
    : Spending.Remembered (computeNullifier c token.ticket token.epoch action)
        (windowEnd token.epoch) s'.rlnNullifiers := by
  obtain ⟨haccepts, rlnNullifiers, hspend, rfl⟩ := verifyAndConsumeNullifier_eq_ok h
  obtain ⟨expires, hlookup, hexpires⟩ := Spending.remembered_spendOnce (congrArg Prod.fst hspend)
  rw [hspend, haccepts.nullifier] at hlookup
  exact ⟨expires, hlookup, Nat.le_trans hlong hexpires⟩

theorem not_ok_of_remembered (hread : now ≤ epochNow)
    (h : Spending.Remembered (computeNullifier c token.ticket token.epoch action)
      (windowEnd token.epoch) s.rlnNullifiers)
    : verifyAndConsumeNullifier c now epochNow token nullifier action s ≠ .ok () s' := by
  intro hok
  obtain ⟨haccepts, rlnNullifiers, hspend, -⟩ := verifyAndConsumeNullifier_eq_ok hok
  have hnow : now < windowEnd token.epoch := Nat.lt_of_le_of_lt hread haccepts.window.lt_windowEnd
  have hused := h.spendOnce_fst 10000 (now + nullifierTtlMs) hnow
  rw [← haccepts.nullifier, hspend] at hused
  contradiction

theorem remembered_final {key : String} {bound : Nat}
    (h : Spending.Remembered key bound s.rlnNullifiers) (hnow : now < bound)
    : Spending.Remembered key bound (Calls.final
        (verifyAndConsumeNullifier c now epochNow token nullifier action) s).rlnNullifiers := by
  rcases verifyAndConsumeNullifier_cases c now epochNow token nullifier action s with
    ⟨err, herr⟩ | ⟨fresh, rlnNullifiers, hspend, -, hanswer⟩
  . rw [Calls.final, Calls.outcome_of_error herr]
    exact h
  . have hkept := h.spendOnce_snd 10000 nullifier (now + nullifierTtlMs) hnow
    rw [hspend] at hkept
    rw [Calls.final, Calls.outcome, hanswer]
    cases fresh <;> exact hkept

end Steps

/--
A call that reads the clock once.
-/
structure NullifierCall where
  now : Nat
  token : EpochQuotaToken
  nullifier : String
  action : String

namespace NullifierCall

def times (call : NullifierCall) : List Nat := [call.now]

def run (call : NullifierCall) : Gates → ApiResult Unit × Gates :=
  Calls.outcome (verifyAndConsumeNullifier c call.now call.now call.token call.nullifier call.action)

/--
The call has succeeded for the ticket, the epoch and the action.
-/
def redeems (ticket : String) (epoch : Nat) (action : String)
    : NullifierCall × ApiResult Unit → Bool
  | (call, .ok ()) => call.token.ticket = ticket && call.token.epoch = epoch && call.action = action
  | _ => false

end NullifierCall

theorem eq_ok_of_redeems {ticket : String} {epoch : Nat} {action : String} {call : NullifierCall}
    {s : Gates} (h : NullifierCall.redeems ticket epoch action (call, (call.run c s).1))
    : verifyAndConsumeNullifier c call.now call.now call.token call.nullifier call.action s
          = .ok () (call.run c s).2
        ∧ call.token.ticket = ticket ∧ call.token.epoch = epoch ∧ call.action = action := by
  rw [NullifierCall.run, Calls.outcome] at h ⊢
  split at h
  . simp only [NullifierCall.redeems, Bool.and_eq_true, decide_eq_true_eq] at h
    exact ⟨by assumption, h.1.1, h.1.2, h.2⟩
  . contradiction

/--
The ticket cannot be redeemed for the action any more, at time `t` or later.
-/
def TicketSpent (ticket : String) (epoch : Nat) (action : String) (t : Nat) (s : Gates) : Prop :=
  windowEnd epoch ≤ t
    ∨ Spending.Remembered (computeNullifier c ticket epoch action) (windowEnd epoch) s.rlnNullifiers

/--
Under a clock that does not go back, calls succeed at most once for each ticket, epoch and action, however
many of them there are.
-/
theorem nullifier_once (calls : List NullifierCall) (s : Gates)
    (hclock : Calls.Clocked NullifierCall.times calls) (ticket : String) (epoch : Nat) (action : String)
    : (Calls.play (NullifierCall.run c) calls s).1.countP
        (NullifierCall.redeems ticket epoch action) ≤ 1 := by
  refine Calls.countP_play_le_one calls s hclock _ (TicketSpent c ticket epoch action) ?spend ?keep
  case spend =>
    intro t s call _ _ _ hredeems
    obtain ⟨hok, rfl, rfl, rfl⟩ := eq_ok_of_redeems c hredeems
    have hwindow := (verifyAndConsumeNullifier_eq_ok hok).1.window
    exact .inr (remembered_of_ok (hwindow.windowEnd_le (Nat.le_add_right _ _)) hok)
  case keep =>
    intro t t' s call _ hsorted hmax hspent
    have hlater : t ≤ call.now := (List.pairwise_cons.1 hsorted).1 _ (by simp [NullifierCall.times])
    have hnow : call.now ≤ t' := hmax _ (by simp [NullifierCall.times])
    constructor
    . intro hredeems
      obtain ⟨hok, rfl, rfl, rfl⟩ := eq_ok_of_redeems c hredeems
      rcases hspent with hover | hremembered
      . have hwindow := (verifyAndConsumeNullifier_eq_ok hok).1.window.lt_windowEnd
        omega
      . exact not_ok_of_remembered (Nat.le_refl _) hremembered hok
    . rcases hspent with hover | hremembered
      . exact .inl (by omega)
      . rcases Nat.lt_or_ge call.now (windowEnd epoch) with hbefore | hafter
        . exact .inr (remembered_final hremembered hbefore)
        . exact .inl (by omega)

/--
The holder of a ticket uses it twice.
-/
theorem nullifier_once_twice
    : let token := generateQuotaToken .simple 20000 5
      let call : NullifierCall :=
        { now := 21000, token, nullifier := computeNullifier .simple token.ticket 1 "login", action := "login" }
      (Calls.play (NullifierCall.run .simple) [call, { call with now := 95000 }] {}).1.countP
        (NullifierCall.redeems token.ticket 1 "login") ≤ 1 :=
  nullifier_once .simple _ {} (by decide) _ 1 "login"

end Lqxp
