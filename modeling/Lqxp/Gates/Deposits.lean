import Lqxp.Gates.Tokens
import Lqxp.Services.Phantom.Deposit

/-!
This module contains what the gates in front of the mailbox let through: each token and each ticket of a day once, as
the memory of a nullifier outlives the window of its ticket.
-/

namespace Lqxp

variable {c : Crypto}

structure DepositCall where
  isBlockedTag : String → ApiResult Bool
  e : DepositEnv
  req : PhantomDepositRequest

namespace DepositCall

def times (call : DepositCall) : List Nat := call.e.times

def run (c : Crypto) (call : DepositCall) : Gates → ApiResult Unit × Gates :=
  Calls.outcome (deposit c call.isBlockedTag call.e call.req)

def acceptsToken (token : String) : DepositCall × ApiResult Unit → Bool
  | (call, .ok ()) => call.req.gate.token = token
  | _ => false

/--
The deposit is accepted with the ticket, on the day.
-/
def acceptsTicket (ticket : String) (day : Nat) : DepositCall × ApiResult Unit → Bool
  | (call, .ok ()) => call.req.gate.quotaToken.any (·.ticket = ticket) && utcDay call.e.dayNow = day
  | _ => false

/--
Clients cannot sign tickets themselves: a ticket with a valid signature has been issued with it, before the call.
-/
def TicketIssued (c : Crypto) (call : DepositCall) : Prop :=
  ∀ token, call.req.gate.quotaToken = some token →
    verifyTicketSignature c (Text.join ':' [toString token.epoch, token.ticket]) token.signature = true →
    ∃ now nonce, now ≤ call.e.rateNow ∧ token.signature = (generateQuotaToken c now nonce).signature

end DepositCall

section Pieces

variable {s s' : Gates} {isBlockedTag : String → ApiResult Bool} {e : DepositEnv} {req : PhantomDepositRequest}
  {quotaToken : EpochQuotaToken}

theorem admitDeposit_cases (c : Crypto) (isBlockedTag : String → ApiResult Bool) (e : DepositEnv)
    (req : PhantomDepositRequest) (s : Gates)
    : ∃ rateLimits,
        (∃ err, admitDeposit c isBlockedTag e req s = .error err { s with rateLimits })
          ∨ ∃ quotaToken, req.gate.quotaToken = some quotaToken
            ∧ admitDeposit c isBlockedTag e req s = .ok quotaToken { s with rateLimits } := by
  obtain ⟨rateLimits, hanswer⟩ := admitDeposit_eq (c := c) isBlockedTag e req s
  rw [hanswer]
  refine ⟨rateLimits, ?_⟩
  split
  . exact .inl ⟨_, rfl⟩
  . split
    . exact .inl ⟨_, rfl⟩
    . exact .inl ⟨_, rfl⟩
    . exact .inl ⟨_, rfl⟩
    . exact .inl ⟨_, rfl⟩
    . split
      . exact .inl ⟨_, rfl⟩
      next quotaToken hquota => exact .inr ⟨quotaToken, hquota, rfl⟩

theorem within_admitDeposit {R : Gates → Gates → Prop} (hrate : ∀ (s : Gates) rateLimits, R s { s with rateLimits })
    (isBlockedTag : String → ApiResult Bool) (e : DepositEnv) (req : PhantomDepositRequest)
    : Calls.Within R (admitDeposit c isBlockedTag e req) := by
  intro s
  obtain ⟨rateLimits, ⟨err, hrun⟩ | ⟨quotaToken, -, hrun⟩⟩ := admitDeposit_cases c isBlockedTag e req s
  . rw [Calls.final, Calls.outcome_of_error hrun]
    exact hrate s rateLimits
  . rw [Calls.final, Calls.outcome_of_ok hrun]
    exact hrate s rateLimits

theorem within_verifyAndConsumeNullifier {R : Gates → Gates → Prop}
    (hspend : ∀ (s : Gates) rlnNullifiers, R s { s with rlnNullifiers }) (now epochNow : Nat) (token : EpochQuotaToken)
    (nullifier action : String) : Calls.Within R (verifyAndConsumeNullifier c now epochNow token nullifier action) := by
  intro s
  obtain ⟨rlnNullifiers, hfinal⟩ := final_verifyAndConsumeNullifier c now epochNow token nullifier action s
  rw [hfinal]
  exact hspend s rlnNullifiers

/--
A step from which on no token can be spent that could not before.
-/
def ShrinksTokens (s s' : Gates) : Prop :=
  Issuing.Shrinks s.capTokens s'.capTokens ∧ Issuing.Shrinks s.depositTokens s'.depositTokens

theorem ShrinksTokens.trans {s₁ s₂ s₃ : Gates} (h : ShrinksTokens s₁ s₂) (h' : ShrinksTokens s₂ s₃)
    : ShrinksTokens s₁ s₃ :=
  ⟨fun key expires hkey => h.1 key expires (h'.1 key expires hkey),
    fun key expires hkey => h.2 key expires (h'.2 key expires hkey)⟩

theorem ShrinksTokens.of_keeps (h : KeepsTokens s s') : ShrinksTokens s s' :=
  ⟨h.1 ▸ shrinks_refl _, h.2 ▸ shrinks_refl _⟩

/--
The state but for its tokens is the same.
-/
def SpendsTokens (s s' : Gates) : Prop :=
  ShrinksTokens s s' ∧ s' = { s with capTokens := s'.capTokens, depositTokens := s'.depositTokens }

/--
No gate takes the token any more.
-/
def TokenGone (token : String) (s : Gates) : Prop :=
  ((Text.splitOn '.' token).head? = some "cap" → s.capTokens.lookup token = none)
    ∧ ((Text.splitOn '.' token).head? = some "pass" → s.depositTokens.lookup token = none)

theorem TokenGone.of_shrinks {token : String} (h : TokenGone token s) (hshrinks : ShrinksTokens s s')
    : TokenGone token s' :=
  ⟨fun hkind => hshrinks.1.lookup_eq_none (h.1 hkind), fun hkind => hshrinks.2.lookup_eq_none (h.2 hkind)⟩

theorem consumeGateToken_cases (c : Crypto) (now : Nat) (gate : PhantomGate) (s : Gates)
    : (∃ err s', consumeGateToken c now gate s = .error err s' ∧ SpendsTokens s s')
        ∨ ∃ s', consumeGateToken c now gate s = .ok () s' ∧ SpendsTokens s s'
          ∧ ¬ TokenGone gate.token s ∧ TokenGone gate.token s' := by
  unfold consumeGateToken
  cases gate.mode with
  | cap =>
    dsimp only
    rcases verifyAndConsumeCapToken_cases c now gate.token "phantom" s with
      ⟨err, hrun⟩ | ⟨err, hrun⟩ | ⟨hrun, ⟨expires, hlookup, -⟩, tokenId, expiresStr, expiresAt, -, hparts⟩
    . exact .inl ⟨err, s, hrun, .of_keeps (.refl s), rfl⟩
    . exact .inl ⟨err, _, hrun, ⟨shrinks_erase _ _, shrinks_refl _⟩, rfl⟩
    . have hkind : (Text.splitOn '.' gate.token).head? = some "cap" := by rw [hparts]; rfl
      refine .inr ⟨_, hrun, ⟨⟨shrinks_erase _ _, shrinks_refl _⟩, rfl⟩, fun hgone => ?_, fun _ => ?_, fun hpass => ?_⟩
      . rw [hgone.1 hkind] at hlookup
        contradiction
      . exact lookup_erase_self _ _
      . rw [hkind] at hpass
        exact absurd hpass (by decide)
  | pass =>
    dsimp only
    rcases consumeDepositToken_cases c now gate.token s with
      ⟨err, hrun⟩ | ⟨err, hrun⟩ | ⟨hrun, ⟨expires, hlookup, -⟩, tokenId, expiresStr, expiresAt, -, hparts⟩
    . exact .inl ⟨err, s, hrun, .of_keeps (.refl s), rfl⟩
    . exact .inl ⟨err, _, hrun, ⟨shrinks_refl _, shrinks_retain_erase _ _ _⟩, rfl⟩
    . have hkind : (Text.splitOn '.' gate.token).head? = some "pass" := by rw [hparts]; rfl
      refine .inr ⟨_, hrun, ⟨⟨shrinks_refl _, shrinks_retain_erase _ _ _⟩, rfl⟩, fun hgone => ?_, fun hcap => ?_,
        fun _ => ?_⟩
      . rw [hgone.2 hkind] at hlookup
        contradiction
      . rw [hkind] at hcap
        exact absurd hcap (by decide)
      . exact lookup_erase_self _ _

theorem within_consumeGateToken (now : Nat) (gate : PhantomGate)
    : Calls.Within SpendsTokens (consumeGateToken c now gate) := by
  intro s
  rcases consumeGateToken_cases c now gate s with ⟨err, s', hrun, hspends⟩ | ⟨s', hrun, hspends, -, -⟩
  . rwa [Calls.final, Calls.outcome_of_error hrun]
  . rwa [Calls.final, Calls.outcome_of_ok hrun]

theorem consumeGateToken_eq_ok {now : Nat} {gate : PhantomGate} (h : consumeGateToken c now gate s = .ok () s')
    : ¬ TokenGone gate.token s ∧ TokenGone gate.token s' := by
  rcases consumeGateToken_cases c now gate s with ⟨err, s₁, hrun, -⟩ | ⟨s₁, hrun, -, hthere, hgone⟩
  . rw [hrun] at h
    contradiction
  . rw [hrun] at h
    obtain rfl := (EStateM.Result.ok.inj h).2
    exact ⟨hthere, hgone⟩

/--
The end of a deposit, where the envelope comes into the mailbox.
-/
def storeEnvelope (e : DepositEnv) (envelope : PhantomEnvelope) : Gated Unit := do
  let gates ← get
  let (stored, phantomStore) := gates.phantomStore.tryDeposit e.order envelope e.storeNow
  set { gates with phantomStore }
  refuseIf (stored = false) (.tooManyRequests "Dead-drop memory budget reached.")

theorem storeEnvelope_cases (e : DepositEnv) (envelope : PhantomEnvelope) (s : Gates)
    : (∃ err, storeEnvelope e envelope s = .error err s)
        ∨ storeEnvelope e envelope s
          = .ok () { s with phantomStore := s.phantomStore.deposit e.order envelope e.storeNow } := by
  simp only [storeEnvelope, get_bind, set_bind, DeadDropStore.tryDeposit]
  by_cases hfull : maxTotalBytes < min (s.phantomStore.liveBytes + Text.len envelope.ct) (2 ^ 64 - 1)
  . simp only [if_pos hfull]
    exact .inl ⟨_, rfl⟩
  . simp only [if_neg hfull]
    exact .inr rfl

theorem within_storeEnvelope {R : Gates → Gates → Prop} (hrefl : ∀ s, R s s)
    (hstore : ∀ (s : Gates) phantomStore, R s { s with phantomStore }) (e : DepositEnv) (envelope : PhantomEnvelope)
    : Calls.Within R (storeEnvelope e envelope) := by
  intro s
  rcases storeEnvelope_cases e envelope s with ⟨err, hrun⟩ | hrun
  . rw [Calls.final, Calls.outcome_of_error hrun]
    exact hrefl s
  . rw [Calls.final, Calls.outcome_of_ok hrun]
    exact hstore s _

theorem deposit_eq (isBlockedTag : String → ApiResult Bool) (e : DepositEnv) (req : PhantomDepositRequest)
    : deposit c isBlockedTag e req
        = admitDeposit c isBlockedTag e req >>= fun quotaToken =>
          verifyAndConsumeNullifier c e.nullifierNow e.epochNow quotaToken req.gate.nullifier
            (depositAction (utcDay e.dayNow)) >>= fun _ =>
          consumeGateToken c e.tokenNow req.gate >>= fun _ => storeEnvelope e req.envelope := rfl

theorem within_deposit {R : Gates → Gates → Prop} (htrans : ∀ {s₁ s₂ s₃}, R s₁ s₂ → R s₂ s₃ → R s₁ s₃)
    (hrate : ∀ (s : Gates) rateLimits, R s { s with rateLimits })
    (hnullifier : ∀ token nullifier action,
      Calls.Within R (verifyAndConsumeNullifier c e.nullifierNow e.epochNow token nullifier action))
    (htokens : ∀ {s s'}, SpendsTokens s s' → R s s') (hstore : ∀ (s : Gates) phantomStore, R s { s with phantomStore })
    : Calls.Within R (deposit c isBlockedTag e req) := by
  rw [deposit_eq]
  refine .bind (R := R) htrans (within_admitDeposit hrate _ _ _) fun token => ?_
  refine .bind (R := R) htrans (hnullifier _ _ _) fun _ => ?_
  refine .bind (R := R) htrans (fun s => htokens (within_consumeGateToken _ _ s)) fun _ => ?_
  exact within_storeEnvelope (fun s => hstore s s.phantomStore) hstore _ _

theorem deposit_eq_ok (h : deposit c isBlockedTag e req s = .ok () s')
    : ∃ quotaToken rateLimits s₂ s₃, req.gate.quotaToken = some quotaToken
        ∧ verifyAndConsumeNullifier c e.nullifierNow e.epochNow quotaToken req.gate.nullifier
            (depositAction (utcDay e.dayNow)) { s with rateLimits } = .ok () s₂
        ∧ consumeGateToken c e.tokenNow req.gate s₂ = .ok () s₃
        ∧ ∃ phantomStore, s' = { s₃ with phantomStore } := by
  rw [deposit_eq] at h
  obtain ⟨quotaToken, s₁, hadmit, h⟩ := Calls.bind_eq_ok.1 h
  obtain ⟨u, s₂, hnullifier, h⟩ := Calls.bind_eq_ok.1 h
  obtain ⟨u', s₃, htoken, hstore⟩ := Calls.bind_eq_ok.1 h
  obtain ⟨rateLimits, ⟨err, hrun⟩ | ⟨quotaToken', hquota, hrun⟩⟩ := admitDeposit_cases c isBlockedTag e req s
  . rw [hrun] at hadmit
    contradiction
  . rw [hrun] at hadmit
    obtain ⟨rfl, rfl⟩ := EStateM.Result.ok.inj hadmit
    refine ⟨quotaToken', rateLimits, s₂, s₃, hquota, hnullifier, htoken, ?_⟩
    rcases storeEnvelope_cases e req.envelope s₃ with ⟨err, hend⟩ | hend
    . rw [hend] at hstore
      contradiction
    . rw [hend] at hstore
      exact ⟨_, (EStateM.Result.ok.inj hstore).2.symm⟩

end Pieces

section Once

variable {call : DepositCall} {s s' : Gates} {token : String}

theorem eq_ok_of_run (h : (call.run c s).1 = .ok ())
    : deposit c call.isBlockedTag call.e call.req s = .ok () (call.run c s).2 := by
  rw [DepositCall.run, Calls.outcome] at h ⊢
  split
  next u s' heq => exact heq
  next err s' heq =>
    rw [heq] at h
    contradiction

theorem shrinksTokens_run (call : DepositCall) (s : Gates) : ShrinksTokens s (call.run c s).2 := by
  refine within_deposit (R := ShrinksTokens) ShrinksTokens.trans (fun s _ => .of_keeps ⟨rfl, rfl⟩)
    (fun _ _ _ => ?_) (fun h => h.1) (fun s _ => .of_keeps ⟨rfl, rfl⟩) s
  exact within_verifyAndConsumeNullifier (fun s _ => .of_keeps ⟨rfl, rfl⟩) _ _ _ _ _

theorem tokenGone_of_run (h : (call.run c s).1 = .ok ())
    : ¬ TokenGone call.req.gate.token s ∧ TokenGone call.req.gate.token (call.run c s).2 := by
  obtain ⟨quotaToken, rateLimits, s₂, s₃, -, hnullifier, htoken, phantomStore, heq⟩ := deposit_eq_ok (eq_ok_of_run h)
  obtain ⟨hthere, hgone⟩ := consumeGateToken_eq_ok htoken
  have hkept : KeepsTokens { s with rateLimits } s₂ :=
    (SparesTokens.verifyAndConsumeNullifier _ _ _ _ _).final_of_ok hnullifier
  refine ⟨fun hgone => hthere (hgone.of_shrinks (.of_keeps ⟨hkept.1, hkept.2⟩)), ?_⟩
  rw [heq]
  exact hgone.of_shrinks (.of_keeps ⟨rfl, rfl⟩)

theorem accepted_of_acceptsToken {answer : ApiResult Unit} (h : DepositCall.acceptsToken token (call, answer))
    : answer = .ok () ∧ call.req.gate.token = token := by
  cases answer with
  | error err => contradiction
  | ok u => exact ⟨rfl, of_decide_eq_true h⟩

theorem acceptsToken_once (c : Crypto) (calls : List DepositCall) (s : Gates) (token : String)
    : (Calls.play (DepositCall.run c) calls s).1.countP (DepositCall.acceptsToken token) ≤ 1 := by
  have hclock : Calls.Clocked (fun _ : DepositCall => []) calls := by
    rw [Calls.Clocked, List.flatMap_eq_nil_iff.2 fun _ _ => rfl]
    exact List.Pairwise.nil
  refine Calls.countP_play_le_one calls s hclock _ (fun _ => TokenGone token) ?spend ?keep
  case spend =>
    intro _ s call _ _ _ haccepts
    obtain ⟨hok, rfl⟩ := accepted_of_acceptsToken haccepts
    exact (tokenGone_of_run hok).2
  case keep =>
    intro _ _ s call _ _ _ hgone
    refine ⟨fun haccepts => ?_, hgone.of_shrinks (shrinksTokens_run call s)⟩
    obtain ⟨hok, rfl⟩ := accepted_of_acceptsToken haccepts
    exact (tokenGone_of_run hok).1 hgone

end Once

section Tickets

variable {call : DepositCall} {s s' : Gates} {ticket : String} {epoch day : Nat}

theorem accepted_of_acceptsTicket {answer : ApiResult Unit} (h : DepositCall.acceptsTicket ticket day (call, answer))
    : answer = .ok () ∧ (∃ token, call.req.gate.quotaToken = some token ∧ token.ticket = ticket)
        ∧ utcDay call.e.dayNow = day := by
  cases answer with
  | error err => contradiction
  | ok u =>
    simp only [DepositCall.acceptsTicket, Bool.and_eq_true, Option.any_eq_true, decide_eq_true_eq] at h
    exact ⟨rfl, h.1, h.2⟩

theorem ticket_of_issued {token : EpochQuotaToken} {now : Nat} {nonce : BitVec 128}
    (hvalid : verifyTicketSignature c (Text.join ':' [toString token.epoch, token.ticket]) token.signature = true)
    (hissued : token.signature = (generateQuotaToken c now nonce).signature)
    : token.epoch = currentEpoch now
        ∧ token.ticket = c.rlnMac.sign (Text.join ':' [toString token.epoch, Text.hexDigits nonce.toNat]) := by
  have hcolon (n : Nat) : ':' ∉ (toString n).toList := Text.not_mem_toString (by decide) n
  rw [verifyTicketSignature, decide_eq_true_eq, hissued] at hvalid
  have htext := c.rlnMac.sign_injective hvalid
  obtain ⟨hepoch, hticket⟩ := Text.join_cons_inj (List.cons_ne_nil _ _) (List.cons_ne_nil _ _) (hcolon _) (hcolon _) htext
  have hchars := congrArg String.toList hticket
  rw [Text.toList_join_singleton, Text.toList_join_singleton] at hchars
  refine ⟨Text.toString_inj hepoch, ?_⟩
  rw [String.toList_inj.1 hchars, hepoch]
  rfl

theorem windowEnd_currentEpoch_le {issueNow now : Nat} (h : issueNow ≤ now)
    : windowEnd (currentEpoch issueNow) ≤ now + nullifierTtlMs := by
  simp only [windowEnd, currentEpoch, epochWindowMs, nullifierTtlMs]
  omega

theorem epoch_eq_of_ticket {epoch epoch' n n' : Nat}
    (h : c.rlnMac.sign (Text.join ':' [toString epoch, Text.hexDigits n])
      = c.rlnMac.sign (Text.join ':' [toString epoch', Text.hexDigits n'])) : epoch = epoch' := by
  have hcolon (n : Nat) : ':' ∉ (toString n).toList := Text.not_mem_toString (by decide) n
  have htext := c.rlnMac.sign_injective h
  exact Text.toString_inj (Text.join_cons_inj (List.cons_ne_nil _ _) (List.cons_ne_nil _ _) (hcolon _) (hcolon _) htext).1

/--
The deposit is accepted with the ticket in its epoch, on the day.
-/
def DepositCall.acceptsEpoch (ticket : String) (epoch day : Nat) (entry : DepositCall × ApiResult Unit) : Bool :=
  acceptsTicket ticket day entry && entry.1.req.gate.quotaToken.any (·.epoch = epoch)

theorem accepted_of_acceptsEpoch {answer : ApiResult Unit}
    (h : DepositCall.acceptsEpoch ticket epoch day (call, answer))
    : answer = .ok () ∧ (∃ token, call.req.gate.quotaToken = some token ∧ token.ticket = ticket ∧ token.epoch = epoch)
        ∧ utcDay call.e.dayNow = day := by
  rw [DepositCall.acceptsEpoch, Bool.and_eq_true] at h
  obtain ⟨hok, ⟨token, htoken, hticket⟩, hday⟩ := accepted_of_acceptsTicket h.1
  have hepoch := h.2
  rw [htoken, Option.any_some, decide_eq_true_eq] at hepoch
  exact ⟨hok, ⟨token, htoken, hticket, hepoch⟩, hday⟩

theorem nullifier_of_run {token : EpochQuotaToken} (htoken : call.req.gate.quotaToken = some token)
    (h : (call.run c s).1 = .ok ())
    : ∃ rateLimits s₂,
        verifyAndConsumeNullifier c call.e.nullifierNow call.e.epochNow token call.req.gate.nullifier
            (depositAction (utcDay call.e.dayNow)) { s with rateLimits } = .ok () s₂
          ∧ (call.run c s).2.rlnNullifiers = s₂.rlnNullifiers := by
  obtain ⟨quotaToken, rateLimits, s₂, s₃, hquota, hnullifier, hgate, phantomStore, heq⟩ :=
    deposit_eq_ok (eq_ok_of_run h)
  obtain rfl := Option.some.inj (hquota.symm.trans htoken)
  refine ⟨rateLimits, s₂, hnullifier, ?_⟩
  rw [heq, ((within_consumeGateToken _ _).final_of_ok hgate).2]

theorem remembered_run {key : String} {bound : Nat} (h : Spending.Remembered key bound s.rlnNullifiers)
    (hnow : call.e.nullifierNow < bound) : Spending.Remembered key bound (call.run c s).2.rlnNullifiers := by
  let R (s s' : Gates) : Prop :=
    Spending.Remembered key bound s.rlnNullifiers → Spending.Remembered key bound s'.rlnNullifiers
  refine within_deposit (R := R) (fun h h' hkey => h' (h hkey)) (fun _ _ hkey => hkey) (fun _ _ _ s hkey => ?_)
    (fun hspends hkey => ?_) (fun _ _ hkey => hkey) s h
  . exact remembered_final hkey hnow
  . rw [hspends.2]
    exact hkey

theorem acceptsEpoch_once (c : Crypto) (calls : List DepositCall) (s : Gates)
    (hclock : Calls.Clocked DepositCall.times calls) (hissued : ∀ call ∈ calls, call.TicketIssued c) (ticket : String)
    (epoch day : Nat)
    : (Calls.play (DepositCall.run c) calls s).1.countP (DepositCall.acceptsEpoch ticket epoch day) ≤ 1 := by
  refine Calls.countP_play_le_one calls s hclock _ (TicketSpent c ticket epoch (depositAction day)) ?spend ?keep
  case spend =>
    intro t s call hcall hsorted _ haccepts
    obtain ⟨hok, ⟨token, htoken, rfl, rfl⟩, rfl⟩ := accepted_of_acceptsEpoch haccepts
    obtain ⟨rateLimits, s₂, hnullifier, hsame⟩ := nullifier_of_run htoken hok
    have hvalid := (verifyAndConsumeNullifier_eq_ok hnullifier).1.signature
    obtain ⟨issueNow, nonce, hbefore, hsignature⟩ := hissued call hcall token htoken hvalid
    have hreads : call.e.rateNow ≤ call.e.nullifierNow := (List.pairwise_cons.1 hsorted).1 _ (.tail _ (.head _))
    have hlong : windowEnd token.epoch ≤ call.e.nullifierNow + nullifierTtlMs := by
      rw [(ticket_of_issued hvalid hsignature).1]
      exact windowEnd_currentEpoch_le (Nat.le_trans hbefore hreads)
    refine .inr ?_
    rw [hsame]
    exact remembered_of_ok hlong hnullifier
  case keep =>
    intro t t' s call hcall hsorted hmax hspent
    have htimes : ∀ u ∈ call.e.times, t ≤ u ∧ u ≤ t' := fun u hu =>
      ⟨(List.pairwise_cons.1 hsorted).1 u hu, hmax u (.tail _ hu)⟩
    have hnullifierNow := htimes call.e.nullifierNow (by simp [DepositEnv.times])
    have hreads : call.e.nullifierNow ≤ call.e.epochNow := by
      have hcallSorted := (List.pairwise_cons.1 hsorted).2
      simp only [DepositCall.times, DepositEnv.times, List.pairwise_cons, List.mem_cons] at hcallSorted
      exact hcallSorted.2.2.1 _ (.inl rfl)
    constructor
    . intro haccepts
      obtain ⟨hok, ⟨token, htoken, rfl, rfl⟩, rfl⟩ := accepted_of_acceptsEpoch haccepts
      obtain ⟨rateLimits, s₂, hnullifier, -⟩ := nullifier_of_run htoken hok
      rcases hspent with hover | hremembered
      . have hwindow := (verifyAndConsumeNullifier_eq_ok hnullifier).1.window.lt_windowEnd
        omega
      . have hkept : Spending.Remembered (computeNullifier c token.ticket token.epoch (depositAction _))
            (windowEnd token.epoch) { s with rateLimits }.rlnNullifiers := hremembered
        exact not_ok_of_remembered hreads hkept hnullifier
    . rcases hspent with hover | hremembered
      . exact .inl (Nat.le_trans hover (Nat.le_trans hnullifierNow.1 hnullifierNow.2))
      . rcases Nat.lt_or_ge call.e.nullifierNow (windowEnd epoch) with hbefore | hafter
        . exact .inr (remembered_run hremembered hbefore)
        . exact .inl (Nat.le_trans hafter hnullifierNow.2)

theorem exists_ticket_of_run (hissued : call.TicketIssued c)
    (h : DepositCall.acceptsTicket ticket day (call, (call.run c s).1))
    : ∃ token n, call.req.gate.quotaToken = some token
        ∧ ticket = c.rlnMac.sign (Text.join ':' [toString token.epoch, Text.hexDigits n]) := by
  obtain ⟨hok, ⟨token, htoken, rfl⟩, -⟩ := accepted_of_acceptsTicket h
  obtain ⟨rateLimits, s₂, hnullifier, -⟩ := nullifier_of_run htoken hok
  have hvalid := (verifyAndConsumeNullifier_eq_ok hnullifier).1.signature
  obtain ⟨now, nonce, -, hsignature⟩ := hissued token htoken hvalid
  exact ⟨token, nonce.toNat, htoken, (ticket_of_issued hvalid hsignature).2⟩

theorem acceptsTicket_once (c : Crypto) (calls : List DepositCall) (s : Gates)
    (hclock : Calls.Clocked DepositCall.times calls) (hissued : ∀ call ∈ calls, call.TicketIssued c) (ticket : String) (day : Nat)
    : (Calls.play (DepositCall.run c) calls s).1.countP (DepositCall.acceptsTicket ticket day) ≤ 1 := by
  have hticket {entry : DepositCall × ApiResult Unit} (hentry : entry ∈ (Calls.play (DepositCall.run c) calls s).1)
      (haccepts : DepositCall.acceptsTicket ticket day entry)
      : ∃ token n, entry.1.req.gate.quotaToken = some token
          ∧ ticket = c.rlnMac.sign (Text.join ':' [toString token.epoch, Text.hexDigits n]) := by
    obtain ⟨hcall, s', hanswer⟩ := Calls.exists_of_mem_play hentry
    obtain ⟨call, answer⟩ := entry
    obtain rfl : answer = (call.run c s').1 := hanswer
    exact exists_ticket_of_run (hissued call hcall) haccepts
  by_cases hsome : ∃ entry ∈ (Calls.play (DepositCall.run c) calls s).1, DepositCall.acceptsTicket ticket day entry
  . obtain ⟨first, hfirst, haccepts⟩ := hsome
    obtain ⟨token, n, -, heq⟩ := hticket hfirst haccepts
    refine Nat.le_trans (List.countP_mono_left fun entry hentry haccepts' => ?_)
      (acceptsEpoch_once c calls s hclock hissued ticket token.epoch day)
    obtain ⟨token', n', htoken', heq'⟩ := hticket hentry haccepts'
    rw [DepositCall.acceptsEpoch, haccepts', htoken', Bool.true_and, Option.any_some, decide_eq_true_eq]
    exact epoch_eq_of_ticket (heq'.symm.trans heq)
  . rw [List.countP_eq_zero.2 fun entry hentry haccepts => hsome ⟨entry, hentry, haccepts⟩]
    exact Nat.zero_le 1

end Tickets

section Pipeline

variable {call : DepositCall} {s s' : Gates} {err : ApiError}

theorem admission_spends_nothing (h : admitDeposit c call.isBlockedTag call.e call.req s = .error err s')
    : call.run c s = (.error err, s') ∧ s'.rlnNullifiers = s.rlnNullifiers ∧ s'.capTokens = s.capTokens
        ∧ s'.depositTokens = s.depositTokens := by
  refine ⟨Calls.outcome_of_error (deposit_eq_error h), ?_⟩
  obtain ⟨rateLimits, ⟨err', hrun⟩ | ⟨quotaToken, -, hrun⟩⟩ :=
    admitDeposit_cases c call.isBlockedTag call.e call.req s
  . rw [hrun] at h
    obtain ⟨-, rfl⟩ := EStateM.Result.error.inj h
    exact ⟨rfl, rfl, rfl⟩
  . rw [hrun] at h
    contradiction

theorem phantomStore_of_error (h : (call.run c s).1 = .error err) : (call.run c s).2.phantomStore = s.phantomStore := by
  let R (s s' : Gates) : Prop := s'.phantomStore = s.phantomStore
  have htrans {s₁ s₂ s₃ : Gates} (h : R s₁ s₂) (h' : R s₂ s₃) : R s₁ s₃ := h'.trans h
  have hfails : Calls.FailsWithin R (deposit c call.isBlockedTag call.e call.req) := by
    rw [deposit_eq]
    refine .bind (R := R) htrans (within_admitDeposit (fun _ _ => rfl) _ _ _) fun _ => ?_
    refine .bind (R := R) htrans (within_verifyAndConsumeNullifier (fun _ _ => rfl) _ _ _ _ _) fun _ => ?_
    refine .bind (R := R) htrans (fun s => ?_) fun _ s err s' hend => ?_
    . have hspends := (within_consumeGateToken (c := c) call.e.tokenNow call.req.gate s).2
      show (Calls.final _ s).phantomStore = s.phantomStore
      rw [hspends]
    . rcases storeEnvelope_cases call.e call.req.envelope s with ⟨err', hrun⟩ | hrun
      . rw [hrun] at hend
        exact (EStateM.Result.error.inj hend).2 ▸ rfl
      . rw [hrun] at hend
        contradiction
  rw [DepositCall.run, Calls.outcome] at h ⊢
  split
  next u s' heq =>
    rw [heq] at h
    contradiction
  next err' s' heq => exact hfails s err' s' heq

/--
In every run each gate token, and each ticket on each day, is good for one deposit. What the first checks turn away
spends nothing, and only accepted deposits change the mailbox.
-/
theorem deposits_once (c : Crypto) (calls : List DepositCall) (s : Gates)
    (hclock : Calls.Clocked DepositCall.times calls) (hissued : ∀ call ∈ calls, call.TicketIssued c)
    : let log := (Calls.play (DepositCall.run c) calls s).1
      (∀ token, log.countP (DepositCall.acceptsToken token) ≤ 1)
        ∧ (∀ ticket day, log.countP (DepositCall.acceptsTicket ticket day) ≤ 1)
        ∧ (∀ (call : DepositCall) s err s', admitDeposit c call.isBlockedTag call.e call.req s = .error err s' →
          call.run c s = (.error err, s') ∧ s'.rlnNullifiers = s.rlnNullifiers ∧ s'.capTokens = s.capTokens
            ∧ s'.depositTokens = s.depositTokens)
        ∧ ∀ (call : DepositCall) s err, (call.run c s).1 = .error err →
          (call.run c s).2.phantomStore = s.phantomStore :=
  ⟨acceptsToken_once c calls s, acceptsTicket_once c calls s hclock hissued,
    fun _ _ _ _ h => admission_spends_nothing h, fun _ _ _ h => phantomStore_of_error h⟩

def quotaToken : EpochQuotaToken := generateQuotaToken .simple 20000 5

def passToken : String := depositTokenOf .simple "5" 320000

def passDeposit (now : Nat) : DepositCall :=
  let id := String.ofList (List.replicate 64 'a')
  { isBlockedTag := fun _ => .ok false
    e := ⟨now, now, now, now, now, now, .insertion⟩
    req := {
      envelope := { pv := 1, slotId := id, recipientFp := id, senderHint := id, bucket := 4096, ct := "QUJD" }
      gate := {
        mode := .pass, token := passToken, quotaToken := some quotaToken
        nullifier := computeNullifier .simple quotaToken.ticket 1 (depositAction 0) } } }

theorem ticketIssued_passDeposit {now : Nat} (h : 20000 ≤ now) : (passDeposit now).TicketIssued .simple := by
  rintro token htoken -
  obtain rfl := Option.some.inj htoken
  exact ⟨20000, 5, h, rfl⟩

/--
A deposit is accepted and sent again.
-/
theorem deposits_once_replayed
    : let gates : Gates := { depositTokens := (∅ : AssocMap String Nat).insert passToken 320000 }
      let log := (Calls.play (DepositCall.run .simple) [passDeposit 21000, passDeposit 40000] gates).1
      log.countP (DepositCall.acceptsToken passToken) ≤ 1
        ∧ log.countP (DepositCall.acceptsTicket quotaToken.ticket 0) ≤ 1 := by
  have hissued : ∀ call ∈ [passDeposit 21000, passDeposit 40000], call.TicketIssued .simple :=
    List.forall_mem_cons.2 ⟨ticketIssued_passDeposit (by decide),
      List.forall_mem_singleton.2 (ticketIssued_passDeposit (by decide))⟩
  have honce := deposits_once .simple _ { depositTokens := (∅ : AssocMap String Nat).insert passToken 320000 }
    (by decide) hissued
  exact ⟨honce.1 passToken, honce.2.1 quotaToken.ticket 0⟩

end Pipeline

end Lqxp
