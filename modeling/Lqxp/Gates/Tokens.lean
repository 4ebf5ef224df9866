import Lqxp.Gates.Bundles
import Lqxp.Prog.Issuing

/-!
This module contains why tokens are good for one use: a token is accepted back only if it was issued, for what it was
issued, in its time, and no more often than it was issued.
-/

namespace Lqxp

variable {c : Crypto} {s s' : Gates}

section Frames

/--
The tokens that can still be spent are the same.
-/
def KeepsTokens (s s' : Gates) : Prop := s'.capTokens = s.capTokens ∧ s'.depositTokens = s.depositTokens

theorem KeepsTokens.refl (s : Gates) : KeepsTokens s s := ⟨rfl, rfl⟩

theorem KeepsTokens.trans {s₁ s₂ s₃ : Gates} (h : KeepsTokens s₁ s₂) (h' : KeepsTokens s₂ s₃) : KeepsTokens s₁ s₃ :=
  ⟨h'.1.trans h.1, h'.2.trans h.2⟩

/--
A piece of a call leaves all tokens alone.
-/
abbrev SparesTokens {α : Type} (x : Gated α) : Prop := Calls.Within KeepsTokens x

namespace SparesTokens

theorem bind {α β : Type} {x : Gated α} {f : α → Gated β} (hx : SparesTokens x) (hf : ∀ a, SparesTokens (f a))
    : SparesTokens (x >>= f) :=
  Calls.Within.bind (R := KeepsTokens) KeepsTokens.trans hx hf

theorem pure {α : Type} (a : α) : SparesTokens (pure a) := .refl

theorem refuseIf (cond : Prop) [Decidable cond] (err : ApiError) : SparesTokens (refuseIf cond err) := by
  intro s
  rw [Calls.final, Calls.outcome, refuseIf_run]
  by_cases h : cond
  . rw [if_pos h]
    exact .refl s
  . rw [if_neg h]
    exact .refl s

theorem issuePqcChallenge (expiryNow now : Nat) (keyIdBits : BitVec 128) (dk ek : List UInt8)
    : SparesTokens (issuePqcChallenge expiryNow now keyIdBits dk ek) := by
  intro s
  obtain ⟨keys, hrun, -⟩ := issuePqcChallenge_run expiryNow now keyIdBits dk ek s
  rw [Calls.final, Calls.outcome_of_ok hrun]
  exact ⟨rfl, rfl⟩

theorem generateCapChallenge (e : ChallengeEnv) (scope : String) (target : Option String)
    : SparesTokens (generateCapChallenge c e scope target) := by
  intro s
  obtain ⟨keys, hrun, -⟩ := generateCapChallenge_run (c := c) e scope target s
  rw [Calls.final, Calls.outcome_of_ok hrun]
  exact ⟨rfl, rfl⟩

theorem verifyAndConsumeNullifier (now epochNow : Nat) (token : EpochQuotaToken) (nullifier action : String)
    : SparesTokens (verifyAndConsumeNullifier c now epochNow token nullifier action) := by
  intro s
  obtain ⟨rlnNullifiers, hfinal⟩ := final_verifyAndConsumeNullifier c now epochNow token nullifier action s
  rw [hfinal]
  exact ⟨rfl, rfl⟩

theorem verifyAndConsumeVdf (verifyNow now : Nat) (challenge : VdfChallenge) (proof : VdfProof)
    (target : Option String) : SparesTokens (verifyAndConsumeVdf c verifyNow now challenge proof target) := by
  intro s
  obtain ⟨vdfConsumed, hfinal⟩ := final_verifyAndConsumeVdf c verifyNow now challenge proof target s
  rw [hfinal]
  exact ⟨rfl, rfl⟩

theorem verifyAndDecapsulatePqc (now : Nat) (ct : PqcCiphertext) : SparesTokens (verifyAndDecapsulatePqc c now ct) := by
  intro s
  rcases final_verifyAndDecapsulatePqc c now ct s with hfinal | hfinal
  . rw [hfinal]
    exact .refl s
  . rw [hfinal]
    exact ⟨rfl, rfl⟩

end SparesTokens

end Frames

section Minting

/--
A call that leaves all tokens alone until it answers, and only then changes the state.
-/
def AnswersWith {α : Type} (x : Gated α) (a : α) (change : Gates → Gates) : Prop :=
  ∀ s, (∃ err s', x s = .error err s' ∧ KeepsTokens s s') ∨ ∃ s', x s = .ok a (change s') ∧ KeepsTokens s s'

namespace AnswersWith

variable {α β : Type} {a : α} {change : Gates → Gates}

theorem bind {x : Gated β} {f : β → Gated α} (hx : SparesTokens x) (hf : ∀ b, AnswersWith (f b) a change)
    : AnswersWith (x >>= f) a change := by
  intro s
  have hkeeps := hx s
  rw [Calls.final, Calls.outcome] at hkeeps
  show (∃ err s', EStateM.bind x f s = .error err s' ∧ _) ∨ ∃ s', EStateM.bind x f s = .ok a (change s') ∧ _
  rw [EStateM.bind]
  cases hxs : x s with
  | error err s₁ =>
    rw [hxs] at hkeeps
    exact .inl ⟨err, s₁, rfl, hkeeps⟩
  | ok b s₁ =>
    rw [hxs] at hkeeps
    rcases hf b s₁ with ⟨err, s', hrun, hrest⟩ | ⟨s', hrun, hrest⟩
    . exact .inl ⟨err, s', hrun, hkeeps.trans hrest⟩
    . exact .inr ⟨s', hrun, hkeeps.trans hrest⟩

theorem modify_pure (a : α) (change : Gates → Gates)
    : AnswersWith (do modify change; return a) a change :=
  fun s => .inr ⟨s, rfl, .refl s⟩

end AnswersWith

def mintedToken (c : Crypto) (e : RedeemEnv) (scope : String) : String :=
  capTokenOf c (Text.hexDigits e.tokenIdBits.toNat) scope (e.now + capTokenTtlMs)

def mint (c : Crypto) (e : RedeemEnv) (scope : String) (gates : Gates) : Gates :=
  { gates with capTokens :=
      (gates.capTokens.retain fun _ exp => e.now < exp).insert (mintedToken c e scope) (e.now + capTokenTtlMs) }

theorem answersWith_redeemCapChallenge (e : RedeemEnv) (req : CapRedeemRequest)
    : AnswersWith (redeemCapChallenge c e req)
        { success := true, capToken := mintedToken c e req.scope, expiresAt := e.now + capTokenTtlMs }
        (mint c e req.scope) := by
  refine .bind (.refuseIf _ _) fun _ => .bind (.refuseIf _ _) fun _ => .bind (.refuseIf _ _) fun _ =>
    .bind (.refuseIf _ _) fun _ => ?_
  refine .bind (.verifyAndConsumeNullifier _ _ _ _ _) fun _ => .bind (.verifyAndConsumeVdf _ _ _ _ _) fun _ => ?_
  refine .bind (.verifyAndDecapsulatePqc _ _) fun _ => .bind (.refuseIf _ _) fun _ => .bind (.refuseIf _ _) fun _ => ?_
  exact .modify_pure _ _

end Minting

section Spending

variable {now : Nat} {token scope : String}

/--
A text in the form of a cap token for a scope. Zeros or a sign may stand before the number in it.
-/
def IsCapToken (c : Crypto) (token scope : String) : Prop :=
  ∃ tokenId expiresStr expiresAt, Text.parseU64 expiresStr = some expiresAt
    ∧ Text.splitOn '.' token = ["cap", tokenId, expiresStr, c.capMac.sign (tokenText tokenId scope expiresAt)]

/--
A text in the form of a deposit token.
-/
def IsDepositToken (c : Crypto) (token : String) : Prop :=
  ∃ tokenId expiresStr expiresAt, Text.parseU64 expiresStr = some expiresAt
    ∧ Text.splitOn '.' token = ["pass", tokenId, expiresStr, c.passMac.sign (depositTokenText tokenId expiresAt)]

theorem verifyAndConsumeCapToken_cases (c : Crypto) (now : Nat) (token scope : String) (s : Gates)
    : (∃ err, verifyAndConsumeCapToken c now token scope s = .error err s)
        ∨ (∃ err, verifyAndConsumeCapToken c now token scope s
          = .error err { s with capTokens := s.capTokens.erase token })
        ∨ (verifyAndConsumeCapToken c now token scope s = .ok () { s with capTokens := s.capTokens.erase token }
          ∧ (∃ expires, s.capTokens.lookup token = some expires ∧ now < expires)
          ∧ IsCapToken c token scope) := by
  unfold verifyAndConsumeCapToken
  rcases hparts : Text.splitOn '.' token with _ | ⟨kind, _ | ⟨tokenId, _ | ⟨expiresStr, _ | ⟨sig, _ | ⟨part, parts⟩⟩⟩⟩⟩
  case cons.cons.cons.cons.nil =>
    simp only [refuseIf_bind]
    by_cases hkind : kind ≠ "cap"
    . rw [if_pos hkind]
      exact .inl ⟨_, rfl⟩
    rw [if_neg hkind]
    cases hexpires : Text.parseU64 expiresStr with
    | none => exact .inl ⟨_, rfl⟩
    | some expiresAt =>
      simp only [refuseIf_bind]
      by_cases hold : expiresAt < now
      . rw [if_pos hold]
        exact .inl ⟨_, rfl⟩
      rw [if_neg hold]
      by_cases hsig : c.capMac.sign (tokenText tokenId scope expiresAt) ≠ sig
      . rw [if_pos hsig]
        exact .inl ⟨_, rfl⟩
      rw [if_neg hsig]
      simp only [get_bind, set_bind, refuseIf_run]
      by_cases hspent : (s.capTokens.lookup token).any (now < ·) = false
      . rw [if_pos hspent]
        exact .inr (.inl ⟨_, rfl⟩)
      rw [if_neg hspent]
      refine .inr (.inr ⟨rfl, ?_, tokenId, expiresStr, expiresAt, hexpires, ?_⟩)
      . simpa [Option.any_eq_true] using hspent
      . rw [hparts, Classical.not_not.1 hkind, Classical.not_not.1 hsig]
  all_goals exact .inl ⟨_, rfl⟩

theorem consumeDepositToken_cases (c : Crypto) (now : Nat) (token : String) (s : Gates)
    : (∃ err, consumeDepositToken c now token s = .error err s)
        ∨ (∃ err, consumeDepositToken c now token s
          = .error err { s with depositTokens := (s.depositTokens.retain fun _ exp => now < exp).erase token })
        ∨ (consumeDepositToken c now token s
            = .ok () { s with depositTokens := (s.depositTokens.retain fun _ exp => now < exp).erase token }
          ∧ (∃ expires, s.depositTokens.lookup token = some expires ∧ now < expires) ∧ IsDepositToken c token) := by
  unfold consumeDepositToken
  rcases hparts : Text.splitOn '.' token with _ | ⟨kind, _ | ⟨tokenId, _ | ⟨expiresStr, _ | ⟨sig, _ | ⟨part, parts⟩⟩⟩⟩⟩
  case cons.cons.cons.cons.nil =>
    simp only [refuseIf_bind]
    by_cases hkind : kind ≠ "pass"
    . rw [if_pos hkind]
      exact .inl ⟨_, rfl⟩
    rw [if_neg hkind]
    cases hexpires : Text.parseU64 expiresStr with
    | none => exact .inl ⟨_, rfl⟩
    | some expiresAt =>
      simp only [refuseIf_bind]
      by_cases hold : expiresAt < now
      . rw [if_pos hold]
        exact .inl ⟨_, rfl⟩
      rw [if_neg hold]
      by_cases hsig : c.passMac.sign (depositTokenText tokenId expiresAt) ≠ sig
      . rw [if_pos hsig]
        exact .inl ⟨_, rfl⟩
      rw [if_neg hsig]
      simp only [get_bind, set_bind, refuseIf_run]
      by_cases hspent : ((s.depositTokens.retain fun _ exp => decide (now < exp)).lookup token).any (now < ·) = false
      . rw [if_pos hspent]
        exact .inr (.inl ⟨_, rfl⟩)
      rw [if_neg hspent]
      refine .inr (.inr ⟨rfl, ?_, tokenId, expiresStr, expiresAt, hexpires, ?_⟩)
      . rw [Bool.not_eq_false, AssocMap.lookup_retain, Option.any_eq_true] at hspent
        obtain ⟨expires, hlookup, hlive⟩ := hspent
        exact ⟨expires, (Option.filter_eq_some_iff.1 hlookup).1, of_decide_eq_true hlive⟩
      . rw [hparts, Classical.not_not.1 hkind, Classical.not_not.1 hsig]
  all_goals exact .inl ⟨_, rfl⟩

theorem splitOn_mintedToken (c : Crypto) (e : RedeemEnv) (scope : String)
    : Text.splitOn '.' (mintedToken c e scope)
        = ["cap", Text.hexDigits e.tokenIdBits.toNat, toString (e.now + capTokenTtlMs),
          c.capMac.sign (tokenText (Text.hexDigits e.tokenIdBits.toNat) scope (e.now + capTokenTtlMs))] := by
  refine Text.splitOn_join (List.cons_ne_nil _ _) ?_
  simp only [List.forall_mem_cons]
  exact ⟨by decide, Text.not_mem_hexDigits (by decide) _, Text.not_mem_toString (by decide) _,
    c.capMac.not_mem_sign (by decide) _, List.forall_mem_nil _⟩

theorem scope_of_isCapToken {e : RedeemEnv} {scope' : String} (h : IsCapToken c (mintedToken c e scope) scope')
    : scope' = scope := by
  obtain ⟨tokenId, expiresStr, expiresAt, hexpires, hparts⟩ := h
  rw [splitOn_mintedToken] at hparts
  simp only [List.cons.injEq, true_and, and_true] at hparts
  obtain ⟨rfl, rfl, hsign⟩ := hparts
  obtain rfl := Text.parseU64_toString hexpires
  have htext := c.capMac.sign_injective hsign
  obtain ⟨-, hrest⟩ := Text.join_cons_inj (List.cons_ne_nil _ _) (List.cons_ne_nil _ _)
    (Text.not_mem_hexDigits (by decide) _) (Text.not_mem_hexDigits (by decide) _) htext
  obtain ⟨hscope, -⟩ := Text.join_concat_inj [_] [_] (by simp) (by simp)
    (Text.not_mem_toString (by decide) _) (Text.not_mem_toString (by decide) _) hrest
  have hchars := congrArg String.toList hscope
  rw [Text.toList_join_singleton, Text.toList_join_singleton] at hchars
  exact (String.toList_inj.1 hchars).symm

end Spending

section Effects

open Issuing (Effect)

def capEffect : GateCall × ApiResult GateAnswer → Effect String
  | (.redeem _ _, .ok (.redeemed response)) => .issues response.capToken response.expiresAt
  | (.consumeCapToken now token _, .ok _) => .takes token now
  | _ => .idle

def depositEffect : GateCall × ApiResult GateAnswer → Effect String
  | (.issueDeposit now _, .ok (.depositToken token)) => .issues token (now + passDepositTokenTtlMs)
  | (.consumeDeposit now token, .ok _) => .takes token now
  | _ => .idle

theorem shrinks_refl (m : AssocMap String Nat) : Issuing.Shrinks m m := fun _ _ h => h

theorem shrinks_erase (m : AssocMap String Nat) (token : String) : Issuing.Shrinks m (m.erase token) := by
  intro key expires h
  rw [AssocMap.lookup_erase] at h
  split at h
  . contradiction
  . exact h

theorem shrinks_retain (m : AssocMap String Nat) (p : String → Nat → Bool) : Issuing.Shrinks m (m.retain p) := by
  intro key expires h
  rw [AssocMap.lookup_retain] at h
  exact (Option.filter_eq_some_iff.1 h).1

theorem shrinks_retain_erase (m : AssocMap String Nat) (p : String → Nat → Bool) (token : String)
    : Issuing.Shrinks m ((m.retain p).erase token) := fun key expires h =>
  shrinks_retain m p key expires (shrinks_erase _ token key expires h)

theorem lookup_erase_self (m : AssocMap String Nat) (token : String) : (m.erase token).lookup token = none := by
  rw [AssocMap.lookup_erase, if_pos rfl]

theorem sparesTokens_handle {call : GateCall} (hredeem : ∀ e req, call ≠ .redeem e req)
    (hcap : ∀ now token scope, call ≠ .consumeCapToken now token scope)
    (hissue : ∀ now tokenIdBits, call ≠ .issueDeposit now tokenIdBits)
    (hdeposit : ∀ now token, call ≠ .consumeDeposit now token) : SparesTokens (call.handle c) := by
  cases call with
  | generate e scope target => exact .bind (.generateCapChallenge _ _ _) fun _ => .pure _
  | issueKey expiryNow now keyIdBits dk ek => exact .bind (.issuePqcChallenge _ _ _ _ _) fun _ => .pure _
  | decapsulate now ct => exact .bind (.verifyAndDecapsulatePqc _ _) fun _ => .pure _
  | consumeNullifier now epochNow token nullifier action =>
    exact .bind (.verifyAndConsumeNullifier _ _ _ _ _) fun _ => .pure _
  | consumeVdf verifyNow now challenge proof target =>
    exact .bind (.verifyAndConsumeVdf _ _ _ _ _) fun _ => .pure _
  | redeem e req => exact absurd rfl (hredeem e req)
  | consumeCapToken now token scope => exact absurd rfl (hcap now token scope)
  | issueDeposit now tokenIdBits => exact absurd rfl (hissue now tokenIdBits)
  | consumeDeposit now token => exact absurd rfl (hdeposit now token)

theorem run_redeem_cases (c : Crypto) (e : RedeemEnv) (req : CapRedeemRequest) (s : Gates)
    : (∃ err s', GateCall.run c (.redeem e req) s = (.error err, s') ∧ KeepsTokens s s')
        ∨ ∃ s', GateCall.run c (.redeem e req) s
            = (.ok (.redeemed
                { success := true, capToken := mintedToken c e req.scope, expiresAt := e.now + capTokenTtlMs }),
              mint c e req.scope s')
          ∧ KeepsTokens s s' := by
  rw [GateCall.run, GateCall.handle, outcome_bind_pure]
  rcases answersWith_redeemCapChallenge e req s with ⟨err, s', hrun, hkeeps⟩ | ⟨s', hrun, hkeeps⟩
  . rw [Calls.outcome_of_error hrun]
    exact .inl ⟨err, s', rfl, hkeeps⟩
  . rw [Calls.outcome_of_ok hrun]
    exact .inr ⟨s', rfl, hkeeps⟩

theorem capEffect_sound (call : GateCall) (s : Gates)
    : (capEffect (call, (call.run c s).1)).Sound s.capTokens (call.run c s).2.capTokens := by
  have hidle {m : AssocMap String Nat} (h : m = s.capTokens) : Effect.Sound .idle s.capTokens m :=
    .idle (h ▸ shrinks_refl _)
  cases call with
  | redeem e req =>
    rcases run_redeem_cases c e req s with ⟨err, s', hrun, hkeeps⟩ | ⟨s', hrun, hkeeps⟩
    . rw [hrun]
      exact hidle hkeeps.1
    . rw [hrun]
      refine .issues fun key expires h => ?_
      rw [mint, AssocMap.lookup_insert] at h
      split at h
      next heq => exact .inl ⟨heq, (Option.some.inj h).symm⟩
      next => exact .inr (hkeeps.1 ▸ shrinks_retain _ _ key expires h)
  | consumeCapToken now token scope =>
    rw [GateCall.run, GateCall.handle, outcome_bind_pure]
    rcases verifyAndConsumeCapToken_cases c now token scope s with
      ⟨err, hrun⟩ | ⟨err, hrun⟩ | ⟨hrun, ⟨expires, hlookup, hlive⟩, -⟩
    . rw [Calls.outcome_of_error hrun]
      exact hidle rfl
    . rw [Calls.outcome_of_error hrun]
      exact .idle (shrinks_erase _ _)
    . rw [Calls.outcome_of_ok hrun]
      exact .takes hlookup hlive (shrinks_erase _ _) (lookup_erase_self _ _)
  | issueDeposit now tokenIdBits => exact hidle rfl
  | consumeDeposit now token =>
    rw [GateCall.run, GateCall.handle, outcome_bind_pure]
    rcases consumeDepositToken_cases c now token s with ⟨err, hrun⟩ | ⟨err, hrun⟩ | ⟨hrun, -⟩
    . rw [Calls.outcome_of_error hrun]
      exact hidle rfl
    . rw [Calls.outcome_of_error hrun]
      exact hidle rfl
    . rw [Calls.outcome_of_ok hrun]
      exact hidle rfl
  | generate | issueKey | decapsulate | consumeNullifier | consumeVdf =>
    exact hidle (sparesTokens_handle (by simp) (by simp) (by simp) (by simp) s).1

theorem depositEffect_sound (call : GateCall) (s : Gates)
    : (depositEffect (call, (call.run c s).1)).Sound s.depositTokens (call.run c s).2.depositTokens := by
  have hidle {m : AssocMap String Nat} (h : m = s.depositTokens) : Effect.Sound .idle s.depositTokens m :=
    .idle (h ▸ shrinks_refl _)
  cases call with
  | redeem e req =>
    rcases run_redeem_cases c e req s with ⟨err, s', hrun, hkeeps⟩ | ⟨s', hrun, hkeeps⟩
    . rw [hrun]
      exact hidle hkeeps.2
    . rw [hrun]
      exact hidle hkeeps.2
  | issueDeposit now tokenIdBits =>
    refine .issues fun key expires h => ?_
    rw [GateCall.run, GateCall.handle] at h
    rcases Decidable.em (key = depositTokenOf c (Text.hexDigits tokenIdBits.toNat) (now + passDepositTokenTtlMs)) with
      rfl | hne
    . exact .inl ⟨rfl, (Option.some.inj ((AList.lookup_insert _).symm.trans h)).symm⟩
    . exact .inr ((AList.lookup_insert_ne hne).symm.trans h)
  | consumeDeposit now token =>
    rw [GateCall.run, GateCall.handle, outcome_bind_pure]
    rcases consumeDepositToken_cases c now token s with
      ⟨err, hrun⟩ | ⟨err, hrun⟩ | ⟨hrun, ⟨expires, hlookup, hlive⟩, -⟩
    . rw [Calls.outcome_of_error hrun]
      exact hidle rfl
    . rw [Calls.outcome_of_error hrun]
      exact .idle (shrinks_retain_erase _ _ _)
    . rw [Calls.outcome_of_ok hrun]
      exact .takes hlookup hlive (shrinks_retain_erase _ _ _) (lookup_erase_self _ _)
  | consumeCapToken now token scope =>
    rw [GateCall.run, GateCall.handle, outcome_bind_pure]
    rcases verifyAndConsumeCapToken_cases c now token scope s with ⟨err, hrun⟩ | ⟨err, hrun⟩ | ⟨hrun, -⟩
    . rw [Calls.outcome_of_error hrun]
      exact hidle rfl
    . rw [Calls.outcome_of_error hrun]
      exact hidle rfl
    . rw [Calls.outcome_of_ok hrun]
      exact hidle rfl
  | generate | issueKey | decapsulate | consumeNullifier | consumeVdf =>
    exact hidle (sparesTokens_handle (by simp) (by simp) (by simp) (by simp) s).2

end Effects

section Runs

/--
Every cap token that is accepted was minted before, by a redemption for the scope, and its time is not over.
-/
def CapTokensHonoured (log : GateLog) : Prop :=
  ∀ before now token scope answer after, log = before ++ (.consumeCapToken now token scope, .ok answer) :: after →
    ∃ e req response, (.redeem e req, .ok (.redeemed response)) ∈ before
      ∧ response.capToken = token ∧ req.scope = scope ∧ now < response.expiresAt

/--
Every deposit token that is accepted was issued before, and its time is not over.
-/
def DepositTokensHonoured (log : GateLog) : Prop :=
  ∀ before now token answer after, log = before ++ (.consumeDeposit now token, .ok answer) :: after →
    ∃ issueNow tokenIdBits, (.issueDeposit issueNow tokenIdBits, .ok (.depositToken token)) ∈ before
      ∧ now < issueNow + passDepositTokenTtlMs

theorem exists_of_capEffect {entry : GateCall × ApiResult GateAnswer} {token : String} {expires : Nat}
    (h : capEffect entry = .issues token expires)
    : ∃ e req response, entry = (.redeem e req, .ok (.redeemed response))
        ∧ response.capToken = token ∧ response.expiresAt = expires := by
  unfold capEffect at h
  split at h
  next e req response =>
    obtain ⟨htoken, hexpires⟩ := Issuing.Effect.issues.inj h
    exact ⟨e, req, response, rfl, htoken, hexpires⟩
  . contradiction
  . contradiction

theorem exists_of_depositEffect {entry : GateCall × ApiResult GateAnswer} {token : String} {expires : Nat}
    (h : depositEffect entry = .issues token expires)
    : ∃ now tokenIdBits, entry = (.issueDeposit now tokenIdBits, .ok (.depositToken token))
        ∧ now + passDepositTokenTtlMs = expires := by
  unfold depositEffect at h
  split at h
  next now tokenIdBits token' =>
    obtain ⟨rfl, hexpires⟩ := Issuing.Effect.issues.inj h
    exact ⟨now, tokenIdBits, rfl, hexpires⟩
  . contradiction
  . contradiction

theorem isCapToken_of_run {now : Nat} {token scope : String} {answer : GateAnswer}
    (h : (GateCall.run c (.consumeCapToken now token scope) s).1 = .ok answer) : IsCapToken c token scope := by
  rw [GateCall.run, GateCall.handle, outcome_bind_pure] at h
  rcases verifyAndConsumeCapToken_cases c now token scope s with ⟨err, hrun⟩ | ⟨err, hrun⟩ | ⟨-, -, hform⟩
  . rw [Calls.outcome_of_error hrun] at h
    contradiction
  . rw [Calls.outcome_of_error hrun] at h
    contradiction
  . exact hform

theorem capToken_of_run {e : RedeemEnv} {req : CapRedeemRequest} {response : CapRedeemResponse}
    (h : (GateCall.run c (.redeem e req) s).1 = .ok (.redeemed response))
    : response.capToken = mintedToken c e req.scope := by
  rcases run_redeem_cases c e req s with ⟨err, s', hrun, -⟩ | ⟨s', hrun, -⟩
  . rw [hrun] at h
    contradiction
  . rw [hrun] at h
    exact congrArg CapRedeemResponse.capToken (GateAnswer.redeemed.inj (Except.ok.inj h)).symm

theorem capTokensHonoured (c : Crypto) (calls : List GateCall)
    : CapTokensHonoured (Calls.play (GateCall.run c) calls {}).1 := by
  intro before now token scope answer after hlog
  obtain ⟨issue, hmem, expires, hissue, hlive⟩ :=
    Issuing.honoured capEffect_sound calls rfl before _ after token now hlog rfl
  obtain ⟨e, req, response, rfl, rfl, rfl⟩ := exists_of_capEffect hissue
  refine ⟨e, req, response, hmem, rfl, ?_, hlive⟩
  have hmint : response.capToken = mintedToken c e req.scope := by
    obtain ⟨-, s', hanswer⟩ := Calls.exists_of_mem_play (hlog ▸ List.mem_append_left _ hmem)
    exact capToken_of_run hanswer.symm
  have hform : IsCapToken c response.capToken scope := by
    obtain ⟨-, s', hanswer⟩ := Calls.exists_of_mem_play (hlog ▸ List.mem_append_right _ List.mem_cons_self)
    exact isCapToken_of_run hanswer.symm
  rw [hmint] at hform
  exact (scope_of_isCapToken hform).symm

theorem depositTokensHonoured (c : Crypto) (calls : List GateCall)
    : DepositTokensHonoured (Calls.play (GateCall.run c) calls {}).1 := by
  intro before now token answer after hlog
  obtain ⟨issue, hmem, expires, hissue, hlive⟩ :=
    Issuing.honoured depositEffect_sound calls rfl before _ after token now hlog rfl
  obtain ⟨issueNow, tokenIdBits, rfl, rfl⟩ := exists_of_depositEffect hissue
  exact ⟨issueNow, tokenIdBits, hmem, hlive⟩

/--
In every run of the gates each token is accepted no more often than it was minted, and only if it was.
-/
theorem tokensSingleUse (c : Crypto) (calls : List GateCall)
    : let log := (Calls.play (GateCall.run c) calls {}).1
      (∀ token, Issuing.taken capEffect token log ≤ Issuing.issued capEffect token log)
        ∧ CapTokensHonoured log
        ∧ (∀ token, Issuing.taken depositEffect token log ≤ Issuing.issued depositEffect token log)
        ∧ DepositTokensHonoured log :=
  ⟨Issuing.taken_le capEffect_sound calls rfl, capTokensHonoured c calls,
    Issuing.taken_le depositEffect_sound calls rfl, depositTokensHonoured c calls⟩

end Runs

end Lqxp
