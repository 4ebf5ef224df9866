import Lqxp.Accounts.Lemmas.Evictions
import Lqxp.Accounts.Lemmas.Tokens

/-!
This module contains the proof that the recovery of an account revokes everything that came before it, as
long as it overtakes no login and no check of a token.
-/

namespace Lqxp

variable {x : Externals} {g : AccountMemory}

section Login

/--
A login issues a token only for the account that it has found, after a check of the password.
-/
def Vouched (x : Externals) (g : AccountMemory) (_ : AccountEnv) (_ : AccountState) (l : AccountLabel)
    (_ : AccountState) : Prop :=
  ∀ userId tokenHash expiresAt username password, l = .issued userId tokenHash expiresAt →
    g.req = .login username password →
      ∃ hash, g.found = some (userId, hash) ∧ x.verifySecret password hash

theorem vouched_quiet {e : AccountEnv} {s s' : AccountState} : Vouched x g e s .quiet s' := by
  simp [Vouched]

theorem vouched_statement {post : ApiResult α → AccountMemory → Prop}
    {f : AccountEnv → AccountState → ApiResult α × AccountLabel} (herror : ∀ err, post (.error err) g)
    (h : ∀ e s, Vouched x g e s (f e s).2 ((f e s).2.apply s) ∧ post (f e s).1 (g.next (f e s).2))
    : Prog.Spec AccountMemory.next (Vouched x) post (statement f).run g := by
  refine Prog.Spec.atom_iff.2 fun e s => ?_
  by_cases hfails : e.dbFails
  . simp only [hfails, if_true]
    exact ⟨vouched_quiet, herror _⟩
  . simp only [hfails]
    exact h e s

theorem vouched_createSession {userId hash username password : String}
    (hreq : g.req = .login username password) (hfound : g.found = some (userId, hash))
    (hverified : x.verifySecret password hash)
    : Prog.Spec AccountMemory.next (Vouched x) (fun _ _ => True) (createSession userId).run g := by
  refine vouched_statement (fun _ => trivial) fun e s => ?_
  dsimp only
  split
  . exact ⟨vouched_quiet, trivial⟩
  . refine ⟨?_, trivial⟩
    rintro _ _ _ username' password' ⟨⟩ hreq'
    obtain ⟨rfl, rfl⟩ := AccountRequest.login.inj (hreq.symm.trans hreq')
    exact ⟨hash, hfound, hverified⟩

theorem vouched_bind {p : Api β} {f : β → Api α}
    (h : Prog.Spec AccountMemory.next (Vouched x)
      (OnOk fun b g' => Prog.Spec AccountMemory.next (Vouched x) (fun _ _ => True) (f b).run g') p.run g)
    : Prog.Spec AccountMemory.next (Vouched x) (fun _ _ => True) (p >>= f).run g := by
  refine Prog.Spec.bind_iff.2 (Prog.Spec.mono h fun r g' hr => ?_)
  cases r with
  | ok b => exact hr
  | error err => trivial

theorem vouched_login {username password : String} (hreq : g.req = .login username password)
    : Prog.Spec AccountMemory.next (Vouched x) (fun _ _ => True)
        (AccountDatabase.login x username password).run g := by
  refine vouched_bind <| vouched_statement (fun err => trivial) fun e s => ?_
  dsimp only
  split
  next account haccount =>
    refine ⟨by simp [Vouched], ?_⟩
    dsimp only [OnOk, AccountMemory.next]
    split
    . exact vouched_bind trivial
    next hverified =>
    split
    . exact vouched_bind trivial
    split
    . exact vouched_bind trivial
    refine vouched_bind (Prog.Spec.mono (vouched_createSession hreq rfl ?_) fun r _ _ => ?_)
    . simpa using hverified
    . cases r <;> trivial
  next => exact ⟨vouched_quiet, trivial⟩

theorem vouched_handle (req : AccountRequest)
    : Prog.Spec AccountMemory.next (Vouched x) (fun _ _ => True) ((accounts x).handle req)
        ((accounts x).start req) := by
  by_cases hlogin : ∃ username password, req = .login username password
  . obtain ⟨username, password, rfl⟩ := hlogin
    have hreq : ((accounts x).start (.login username password)).req = .login username password := rfl
    refine vouched_bind (Prog.Spec.mono (vouched_login hreq) fun r _ _ => ?_)
    cases r <;> trivial
  . refine Prog.Spec.of_invariant (I := fun g => g.req = req) ?_ ?_ _ rfl
    . exact fun g l hg => (AccountMemory.req_next g l).trans hg
    . rintro g e s l s' hg userId tokenHash expiresAt username password - hreq
      exact absurd ⟨username, password, hg.symm.trans hreq⟩ hlogin

end Login

def issuedHash? : AccountEvent → Option String
  | .act _ _ _ (.issued _ tokenHash _) => some tokenHash
  | _ => none

def issuedHashes (tr : List AccountEvent) : List String := tr.filterMap issuedHash?

def AccountLabel.replacesPassword (userId : String) : AccountLabel → Bool
  | .rehashed userId' _ => userId' = userId
  | .registered user _ => user.id = userId
  | _ => false

theorem exists_of_recovered {x : Externals} {username recoveryWords newPassword : String} {reply : AccountReply}
    {rely : AccountState → AccountState → Prop} {s s' : AccountState} {tr : List (AccountEnv × AccountLabel)}
    (run : Prog.Amid rely (AccountRequest.handle x (.recover username recoveryWords newPassword)) s tr (.ok reply) s')
    : (∃ e userId hash, (e, .rehashed userId hash) ∈ tr) ∧ ∃ e userId, (e, .revoked userId) ∈ tr := by
  have heffects {want : AccountLabel → Prop} (hwant : (∀ userId hash, want (.rehashed userId hash))
      ∨ ∀ userId, want (.revoked userId)) : Effects want (Auth.recover x username recoveryWords newPassword) := by
    refine Effects.bind (Effects.bind_right fun _ => Effects.bind_right fun account => ?_)
    split
    next account =>
      dsimp only
      split
      . exact .bind (.throw _)
      split
      . exact .bind (.throw _)
      refine .bind_right fun _ => ?_
      rcases hwant with hwant | hwant
      . exact .bind (.statement fun _ _ => hwant _ _)
      . exact .bind_right fun _ => .bind (.statement fun _ _ => hwant _)
    next => exact .throw _
  have hrehashed := @heffects (fun l => ∃ userId hash, l = .rehashed userId hash) (.inl fun _ _ => ⟨_, _, rfl⟩)
  have hrevoked := @heffects (fun l => ∃ userId, l = .revoked userId) (.inr fun _ => ⟨_, rfl⟩)
  obtain ⟨step, hmem, userId, hash, hlabel⟩ := hrehashed.of_amid run ⟨reply, rfl⟩
  obtain ⟨step', hmem', userId', hlabel'⟩ := hrevoked.of_amid run ⟨reply, rfl⟩
  exact ⟨⟨step.1, userId, hash, hlabel ▸ hmem⟩, step'.1, userId', hlabel' ▸ hmem'⟩

/--
Thread `i` recovers an account and has succeeded by the time of `q`. The events before it replaces the
password, from there to the revocation of the tokens, and after that, are `pre`, `tr` and `tr'`. There is
no other recovery of the account meanwhile, and no token is drawn twice.
-/
structure Recovers (x : Externals) (userId hash : String) (i : Nat) (pre : List AccountEvent)
    (q₀ : AccountPool) (tr : List AccountEvent) (q₂ : AccountPool) (tr' : List AccountEvent)
    (q : AccountPool) : Prop where
  account : userId ≠ ""
  before : ∃ p : AccountPool, p.Started ∧ Prog.Run (accounts x) (fun _ _ _ _ _ => True) p pre q₀
  rehash : ∃ g e q₁, Prog.Step (accounts x) (fun _ _ _ _ _ => True) q₀ (.act i g e (.rehashed userId hash)) q₁
    ∧ Prog.Run (accounts x) (fun _ _ _ _ _ => True) q₁ tr q₂
  revoke : ∃ g e q₃, Prog.Step (accounts x) (fun _ _ _ _ _ => True) q₂ (.act i g e (.revoked userId)) q₃
    ∧ Prog.Run (accounts x) (fun _ _ _ _ _ => True) q₃ tr' q
  kept (j : Nat) (g : AccountMemory) (e : AccountEnv) (l : AccountLabel)
    : .act j g e l ∈ tr ++ tr' → ¬ l.replacesPassword userId
  fresh : (issuedHashes (pre ++ tr ++ tr')).Nodup
  succeeded : q.Succeeded i

/--
Some thread has issued the token for the account.
-/
def Issues (userId tokenHash : String) (tr : List AccountEvent) : Prop :=
  ∃ i g e expiresAt, .act i g e (.issued userId tokenHash expiresAt) ∈ tr

/--
No token from a login with a password that is not the new one is accepted.
-/
def OldTokensRevoked (x : Externals) (userId hash : String) (tr : List AccountEvent) (q : AccountPool)
    : Prop :=
  ∀ i g e tokenHash expiresAt username password row,
    .act i g e (.issued userId tokenHash expiresAt) ∈ tr → g.req = .login username password →
      x.verifySecret password hash = false →
      q.state.app.accounts.sessions.lookup tokenHash = some row → row.userId ≠ userId

/--
The sessions of the account have been bound with tokens that have been issued in the run.
-/
def OldSessionsUnbound (userId : String) (tr : List AccountEvent) (q : AccountPool) : Prop :=
  ∀ sid player, q.state.app.players.lookup sid = some player → player.userId = userId →
    ∃ mid i g e l post tokenHash, tr = mid ++ .act i g e l :: post ∧ l.Binds sid userId
      ∧ (∀ i g e l userId', .act i g e l ∈ post → ¬ AccountLabel.Binds l sid userId')
      ∧ g.inner.token = some (tokenHash, userId) ∧ Issues userId tokenHash tr

/--
What a recovery is for: once it has succeeded, nothing older gives access to the account.
-/
structure RevokesOlder (x : Externals) (userId hash : String) (pre tr tr' : List AccountEvent)
    (q : AccountPool) : Prop where
  tokens : OldTokensRevoked x userId hash (pre ++ tr ++ tr') q
  sessions : OldSessionsUnbound userId tr' q

/--
A login that read the account before its password was replaced, and whose password is not the new one,
issues no token after the revocation, and whoever looked up a token of the account before the revocation
binds its session before the sessions of the account are listed.
-/
structure NotOutrun (x : Externals) (userId hash : String) (i : Nat) (q₀ q₂ : AccountPool)
    (tr' : List AccountEvent) : Prop where
  logins (j : Nat) (g : AccountMemory) (e : AccountEnv) (tokenHash : String) (expiresAt : Nat)
      (username password : String)
    : .act j g e (.issued userId tokenHash expiresAt) ∈ tr' → g.req = .login username password →
        x.verifySecret password hash = false →
        ¬ ∃ g hash, q₀.memory j = some g ∧ g.found = some (userId, hash)
  checks
    : BindsBeforeListing (fun j => ∃ g tokenHash, q₂.memory j = some g
        ∧ g.inner.token = some (tokenHash, userId)) userId i tr'

variable {p q : AccountPool} {e : AccountEnv} {s s' : AccountState} {l : AccountLabel}
variable {userId hash tokenHash : String} {tr : List AccountEvent} {i : Nat}

/--
The account has the new password, if it is still there.
-/
def HasPassword (userId hash : String) (s : AccountState) : Prop :=
  ∀ user, s.app.accounts.users.lookup userId = some user → s.passwordHash userId = some hash

theorem hasPassword_step (h : AccountTransition g e s l s') (hkept : ¬ l.replacesPassword userId)
    (hpassword : HasPassword userId hash s) : HasPassword userId hash s' := by
  intro user' huser'
  rcases h.user huser' with ⟨user, huser, -⟩ | ⟨⟨secrets, rfl⟩, hid⟩
  . rcases h.passwordHash huser' with hsame | ⟨hash', rfl, -⟩ | ⟨user, secrets, rfl, hid, -⟩
    . rw [hsame]
      exact hpassword user huser
    . simp [AccountLabel.replacesPassword] at hkept
    . simp [AccountLabel.replacesPassword, hid] at hkept
  . simp [AccountLabel.replacesPassword, hid] at hkept

theorem hasPassword_rehashed (h : AccountTransition g e s (.rehashed userId hash) s') (hkeyed : s.Keyed)
    : HasPassword userId hash s' := by
  obtain ⟨rfl, -⟩ := h
  intro user huser
  obtain ⟨secrets, hsecrets⟩ := Option.isSome_iff_exists.1 (hkeyed.secrets userId user huser)
  simp [AccountState.passwordHash, AccountLabel.apply, AccountState.updateSecrets, hsecrets]

theorem found_next (h : (g.next l).found = some (userId, hash))
    : g.found = some (userId, hash) ∨ l = .found userId hash := by
  cases l with
  | found userId' hash' =>
    obtain ⟨rfl, rfl⟩ := Prod.mk.inj (Option.some.inj h)
    exact .inr rfl
  | _ => exact .inl h

theorem found_of_run (h : Prog.Run (accounts x) AccountTransition p tr q) (hkeyed : p.state.Keyed)
    (hpassword : HasPassword userId hash p.state)
    (hkept : ∀ j g e l, .act j g e l ∈ tr → ¬ AccountLabel.replacesPassword userId l) {hash' : String}
    (hi : q.memory i = some g) (hfound : g.found = some (userId, hash'))
    : hash' = hash ∨ ∃ g, p.memory i = some g ∧ g.found = some (userId, hash') := by
  suffices hall : (∀ j g e l, .act j g e l ∈ tr → ¬ AccountLabel.replacesPassword userId l) →
      q.state.Keyed ∧ HasPassword userId hash q.state
        ∧ ∀ i g hash', q.memory i = some g → g.found = some (userId, hash') →
            hash' = hash ∨ ∃ g, p.memory i = some g ∧ g.found = some (userId, hash') from
    (hall hkept).2.2 i g hash' hi hfound
  refine h.memory_induction (fun tr s m =>
    (∀ j g e l, .act j g e l ∈ tr → ¬ AccountLabel.replacesPassword userId l) →
      s.Keyed ∧ HasPassword userId hash s ∧ ∀ i g hash', m i = some g → g.found = some (userId, hash') →
        hash' = hash ∨ ∃ g, p.memory i = some g ∧ g.found = some (userId, hash')) ?_ ?_ ?_
  . exact fun _ => ⟨hkeyed, hpassword, fun i g hash' hg hfound => .inr ⟨g, hg, hfound⟩⟩
  . intro tr s m j req hj ih hkept
    obtain ⟨hkeyed, hpassword, hold⟩ := ih fun j g e l hmem => hkept j g e l (List.mem_append_left _ hmem)
    refine ⟨hkeyed, hpassword, fun i g hash' hg hfound => ?_⟩
    by_cases hij : i = j
    . subst hij
      rw [Function.update_self] at hg
      obtain rfl := Option.some.inj hg
      simp [accounts] at hfound
    . rw [Function.update_of_ne hij] at hg
      exact hold i g hash' hg hfound
  . intro tr s m j acting e l s' hj hstep ih hkept
    obtain ⟨hkeyed, hpassword, hold⟩ := ih fun j g e l hmem => hkept j g e l (List.mem_append_left _ hmem)
    have hpassword' := hasPassword_step hstep (hkept j acting e l (by simp)) hpassword
    refine ⟨keyed_step hstep hkeyed, hpassword', fun i g hash' hg hfound => ?_⟩
    by_cases hij : i = j
    . subst hij
      rw [Function.update_self] at hg
      obtain rfl := Option.some.inj hg
      rcases found_next hfound with hbefore | rfl
      . exact hold i acting hash' hj hbefore
      . left
        obtain ⟨rfl, key, user, huser, hid, rfl⟩ := hstep
        obtain rfl : key = userId := (hkeyed.users key user huser).symm.trans hid
        have hnew := hpassword user huser
        obtain ⟨secrets, hsecrets, rfl⟩ := Option.map_eq_some_iff.1 hnew
        rw [AccountState.account, hid, hsecrets, Option.getD_some]
    . rw [Function.update_of_ne hij] at hg
      exact hold i g hash' hg hfound

theorem Issues.append {tr' : List AccountEvent} (h : Issues userId tokenHash tr)
    : Issues userId tokenHash (tr ++ tr') := by
  obtain ⟨i, g, e, expiresAt, hmem⟩ := h
  exact ⟨i, g, e, expiresAt, List.mem_append_left _ hmem⟩

/--
After a revocation, the tokens of the account are those issued since, and only those are looked up by a
thread that had not looked one up before.
-/
theorem token_of_run (h : Prog.Run (accounts x) AccountTransition p tr q)
    (hp : ∀ tokenHash row, p.state.app.accounts.sessions.lookup tokenHash = some row → row.userId ≠ userId)
    : (∀ tokenHash row, q.state.app.accounts.sessions.lookup tokenHash = some row → row.userId = userId →
          Issues userId tokenHash tr)
        ∧ ∀ i g tokenHash, q.memory i = some g → g.inner.token = some (tokenHash, userId) →
            Issues userId tokenHash tr
              ∨ ∃ g tokenHash, p.memory i = some g ∧ g.inner.token = some (tokenHash, userId) := by
  refine h.memory_induction (fun tr s m =>
    (∀ tokenHash row, s.app.accounts.sessions.lookup tokenHash = some row → row.userId = userId →
        Issues userId tokenHash tr)
      ∧ ∀ i g tokenHash, m i = some g → g.inner.token = some (tokenHash, userId) →
          Issues userId tokenHash tr
            ∨ ∃ g tokenHash, p.memory i = some g ∧ g.inner.token = some (tokenHash, userId)) ?_ ?_ ?_
  . refine ⟨fun tokenHash row hrow huser => absurd huser (hp tokenHash row hrow), ?_⟩
    exact fun i g tokenHash hg htoken => .inr ⟨g, tokenHash, hg, htoken⟩
  . intro tr s m j req hj ⟨hrows, htokens⟩
    refine ⟨fun tokenHash row hrow huser => (hrows tokenHash row hrow huser).append, ?_⟩
    intro i g tokenHash hg htoken
    by_cases hij : i = j
    . subst hij
      rw [Function.update_self] at hg
      obtain rfl := Option.some.inj hg
      simp [accounts] at htoken
    . rw [Function.update_of_ne hij] at hg
      exact (htokens i g tokenHash hg htoken).imp_left .append
  . intro tr s m j acting e l s' hj hstep ⟨hrows, htokens⟩
    refine ⟨fun tokenHash row' hrow' huser => ?_, fun i g tokenHash hg htoken => ?_⟩
    . rcases hstep.row hrow' with ⟨row, hrow, hsame⟩ | ⟨expiresAt, rfl⟩
      . exact (hrows tokenHash row hrow (hsame.trans huser)).append
      . exact ⟨j, acting, e, expiresAt, by simp [huser]⟩
    . by_cases hij : i = j
      . subst hij
        rw [Function.update_self] at hg
        obtain rfl := Option.some.inj hg
        rcases AccountMemory.token_next htoken with hbefore | ⟨on, sender, rfl⟩
        . exact (htokens i acting tokenHash hj hbefore).imp_left .append
        . obtain ⟨⟨-, row, hrow, huser⟩, -⟩ := hstep
          exact .inl (hrows tokenHash row hrow huser).append
      . rw [Function.update_of_ne hij] at hg
        exact (htokens i g tokenHash hg htoken).imp_left .append

theorem rehashed_of_run (h : Prog.Run (accounts x) AccountTransition p tr q) (hi : p.memory i = some g)
    (hrehashed : g.rehashed = some userId) : ∃ g, q.memory i = some g ∧ g.rehashed = some userId := by
  refine h.memory_induction (fun _ _ m => ∃ g, m i = some g ∧ g.rehashed = some userId)
    ⟨g, hi, hrehashed⟩ ?_ ?_
  . intro tr s m j req hj ⟨g, hg, hrehashed⟩
    have hij : i ≠ j := fun heq => by simp [heq, hj] at hg
    exact ⟨g, by rw [Function.update_of_ne hij, hg], hrehashed⟩
  . intro tr s m j acting e l s' hj hstep ⟨g, hg, hrehashed⟩
    by_cases hij : i = j
    . subst hij
      obtain rfl : g = acting := Option.some.inj (hg.symm.trans hj)
      refine ⟨g.next l, Function.update_self .., ?_⟩
      cases l with
      | rehashed userId' hash' => exact absurd hstep.2.2 (by simp [hrehashed])
      | _ => exact hrehashed
    . exact ⟨g, by rw [Function.update_of_ne hij, hg], hrehashed⟩

theorem vouched_of_run {pre post : List AccountEvent} {expiresAt : Nat} {username password : String}
    (hp : p.Started)
    (h : Prog.Run (accounts x) (fun _ _ _ _ _ => True) p
      (pre ++ .act i g e (.issued userId tokenHash expiresAt) :: post) q)
    (hreq : g.req = .login username password)
    : ∃ hash, g.found = some (userId, hash) ∧ x.verifySecret password hash := by
  obtain ⟨hrun, -⟩ := h.of_spec vouched_handle (by simp [hp.threads])
  obtain ⟨q₁, q₂, -, hstep, -⟩ := hrun.split_at
  exact hstep.memory_act.1.2 userId tokenHash expiresAt username password rfl hreq

theorem eq_of_issuedHashes {ev ev' : AccountEvent} {g' : AccountMemory} {e' : AccountEnv} {j : Nat}
    {userId' : String} {expiresAt expiresAt' : Nat} (hfresh : (issuedHashes tr).Nodup)
    (hev : ev = .act i g e (.issued userId tokenHash expiresAt)) (hmem : ev ∈ tr)
    (hev' : ev' = .act j g' e' (.issued userId' tokenHash expiresAt')) (hmem' : ev' ∈ tr) : ev = ev' := by
  by_contra hne
  let R (a a' : AccountEvent) : Prop := ∀ b, issuedHash? a = some b → ∀ b', issuedHash? a' = some b' → b ≠ b'
  have hsymm : Std.Symm R := ⟨fun a b hab c hc d hd heq => hab d hd c hc heq.symm⟩
  have hdistinct : R ev ev' := (List.pairwise_filterMap.1 hfresh).forall hmem hmem' hne
  exact hdistinct tokenHash (by simp [hev, issuedHash?]) tokenHash (by simp [hev', issuedHash?]) rfl

namespace Recovers

variable {pre tr' : List AccountEvent} {q₀ q₂ : AccountPool}

theorem tokens (h : Recovers x userId hash i pre q₀ tr q₂ tr' q)
    (hnot : NotOutrun x userId hash i q₀ q₂ tr') : OldTokensRevoked x userId hash (pre ++ tr ++ tr') q := by
  intro j g e tokenHash expiresAt username password row hmem hreq hold hrow huser
  obtain ⟨p, hp, hpre⟩ := h.before
  obtain ⟨g₁, e₁, q₁, hstep₁, hrun₁⟩ := h.rehash
  obtain ⟨g₃, e₃, q₃, hstep₃, hrun₃⟩ := h.revoke
  have hq₀ : q₀.Reachable x := ⟨p, pre, hp, hpre⟩
  have hq₁ : AccountPool.Reachable x q₁ := hq₀.step hstep₁
  have htransition₁ := (hq₀.ready.1.act hstep₁).1
  obtain ⟨htransition₃, hready₃⟩ := (hq₁.run hrun₁).ready.1.act hstep₃
  -- The token has been issued after the revocation.
  obtain ⟨hissued, -⟩ := token_of_run (hready₃.run hrun₃).1 fun _ _ => htransition₃.userId_ne_of_revoked
  obtain ⟨j', g', e', expiresAt', hmem'⟩ := hissued tokenHash row hrow huser
  have heq := eq_of_issuedHashes h.fresh rfl hmem rfl (List.mem_append_right _ hmem')
  rw [← heq] at hmem'
  obtain ⟨mid, post, htr'⟩ := List.append_of_mem hmem'
  -- The login has checked its password against the one that it has found.
  have hrun : Prog.Run (accounts x) (fun _ _ _ _ _ => True) q₁ (tr ++ .act i g₃ e₃ (.revoked userId) :: tr') q :=
    hrun₁.append ((Prog.Run.nil q₂ |>.snoc hstep₃).append hrun₃)
  rw [htr', ← List.cons_append, ← List.append_assoc] at hrun
  have hfull := (hpre.snoc hstep₁).append hrun
  rw [← List.append_assoc] at hfull
  obtain ⟨hash', hfound, hverified⟩ := vouched_of_run hp hfull hreq
  -- That one is the new one, unless it has been found before the password was replaced.
  obtain ⟨q', q'', hbefore, hstep, -⟩ := hrun.split_at
  have hkept (j : Nat) (g : AccountMemory) (e : AccountEnv) (l : AccountLabel)
      (hmem : .act j g e l ∈ tr ++ .act i g₃ e₃ (.revoked userId) :: mid) : ¬ l.replacesPassword userId := by
    rcases List.mem_append.1 hmem with hmem | hmem
    . exact h.kept j g e l (List.mem_append_left _ hmem)
    rcases List.mem_cons.1 hmem with heq | hmem
    . obtain ⟨-, -, -, rfl⟩ := Prog.Event.act.inj heq
      simp [AccountLabel.replacesPassword]
    . exact h.kept j g e l (List.mem_append_right _ (htr' ▸ List.mem_append_left _ hmem))
  rcases found_of_run (hq₁.ready.1.run hbefore).1 hq₁.ready.2 (hasPassword_rehashed htransition₁ hq₀.ready.2)
    hkept hstep.memory_act.2.1 hfound with rfl | hearly
  . simp [hold] at hverified
  . obtain ⟨g, hg, hfound⟩ := hstep₁.exists_memory (P := fun g => g.found = some (userId, hash')) id hearly
    exact hnot.logins j _ e tokenHash expiresAt username password hmem' hreq hold ⟨g, hash', hg, hfound⟩

theorem not_isWebsocket (h : Recovers x userId hash i pre q₀ tr q₂ tr' q) {g : AccountMemory}
    (hi : q₂.memory i = some g) : g.req.isWebsocket = false := by
  obtain ⟨p, hp, hpre⟩ := h.before
  obtain ⟨g₁, e₁, q₁, hstep₁, hrun₁⟩ := h.rehash
  have hq₀ : q₀.Reachable x := ⟨p, pre, hp, hpre⟩
  obtain ⟨-, ⟨username, words, password, hreq⟩, -⟩ := (hq₀.ready.1.act hstep₁).1
  have hi₁ : q₁.memory i = some (g₁.next (.rehashed userId hash)) := by
    rw [hstep₁.memory_act.2.2, Function.update_self]
    rfl
  obtain ⟨g', hg', hsame⟩ := req_of_run ((hq₀.step hstep₁).ready.1.run hrun₁).1 hi₁
  obtain rfl : g = g' := Option.some.inj (hi.symm.trans hg')
  rw [hsame, AccountMemory.req_next, hreq]
  rfl

theorem evicts (h : Recovers x userId hash i pre q₀ tr q₂ tr' q)
    : ∃ g, q.memory i = some g ∧ g.Evicts userId := by
  obtain ⟨p, hp, hpre⟩ := h.before
  obtain ⟨g₁, e₁, q₁, hstep₁, hrun₁⟩ := h.rehash
  obtain ⟨g₃, e₃, q₃, hstep₃, hrun₃⟩ := h.revoke
  have hq₀ : q₀.Reachable x := ⟨p, pre, hp, hpre⟩
  have hq₁ : AccountPool.Reachable x q₁ := hq₀.step hstep₁
  obtain ⟨-, ⟨username, words, password, hreq⟩, -⟩ := (hq₀.ready.1.act hstep₁).1
  obtain ⟨hrun, hready⟩ := hq₁.ready.1.run (hrun₁.append ((Prog.Run.nil q₂ |>.snoc hstep₃).append hrun₃))
  have hi : q₁.memory i = some (g₁.next (.rehashed userId hash)) := by
    rw [hstep₁.memory_act.2.2, Function.update_self]
    rfl
  obtain ⟨g, hg, hsame⟩ := req_of_run hrun hi
  obtain ⟨g', hg', hrehashed⟩ := rehashed_of_run hrun hi rfl
  obtain ⟨g'', hg'', hfinished⟩ := hready.finished h.succeeded
  obtain rfl : g = g' := Option.some.inj (hg.symm.trans hg')
  obtain rfl : g = g'' := Option.some.inj (hg.symm.trans hg'')
  unfold AccountMemory.Finished at hfinished
  rw [hsame, AccountMemory.req_next, hreq] at hfinished
  obtain ⟨userId', hrehashed', hevicts⟩ := hfinished
  obtain rfl : userId = userId' := Option.some.inj (hrehashed.symm.trans hrehashed')
  exact ⟨g, hg, hevicts⟩

theorem sessions (h : Recovers x userId hash i pre q₀ tr q₂ tr' q)
    (hnot : NotOutrun x userId hash i q₀ q₂ tr') : OldSessionsUnbound userId tr' q := by
  intro sid player hplayer huser
  obtain ⟨p, hp, hpre⟩ := h.before
  obtain ⟨g₁, e₁, q₁, hstep₁, hrun₁⟩ := h.rehash
  obtain ⟨g₃, e₃, q₃, hstep₃, hrun₃⟩ := h.revoke
  have hq₀ : q₀.Reachable x := ⟨p, pre, hp, hpre⟩
  have hq₂ : q₂.Reachable x := (hq₀.step hstep₁).run hrun₁
  have hq₃ : AccountPool.Reachable x q₃ := hq₂.step hstep₃
  have htransition₃ := (hq₂.ready.1.act hstep₃).1
  have hi : q₃.memory i = some (g₃.next (.revoked userId)) := by
    rw [hstep₃.memory_act.2.2, Function.update_self]
    rfl
  have hwebsocket : (g₃.next (.revoked userId)).req.isWebsocket = false := by
    rw [AccountMemory.req_next]
    exact h.not_isWebsocket hstep₃.memory_act.2.1
  -- All sessions that there were when they were listed are closed, so this one has been bound since.
  obtain ⟨g, hg, hevicts⟩ := h.evicts
  obtain ⟨g', hg', hclosing⟩ := closing_of_run (hq₃.ready.1.run hrun₃).1 hq₃.ready.2 h.account hnot.checks hi
    hwebsocket htransition₃.2
  obtain rfl : g = g' := Option.some.inj (hg.symm.trans hg')
  obtain ⟨mid, j, g, e, l, post, rfl, hbinds, hlate, hlast⟩ := hclosing.rebound hevicts hplayer huser
  -- Its thread has looked up a token of the account, and has done so since the revocation.
  obtain ⟨q', q'', hbefore, hstep, -⟩ := hrun₃.split_at
  have hq' : AccountPool.Reachable x q' := hq₃.run hbefore
  have hj := hstep.memory_act.2.1
  have haccount : g.inner.account = some userId := by
    obtain ⟨on, sender, rfl⟩ := hbinds
    exact (hq'.ready.1.act hstep).1.1.2.1
  obtain ⟨th, hth, rfl⟩ := Option.map_eq_some_iff.1 hj
  obtain ⟨tokenHash, htoken⟩ := hq'.checked th (List.mem_of_getElem? hth) userId haccount
  rcases (token_of_run (hq₃.ready.1.run hbefore).1 fun _ _ => htransition₃.userId_ne_of_revoked).2 j _ tokenHash
    hj htoken with hissues | ⟨g', tokenHash', hg', htoken'⟩
  . exact ⟨mid, j, _, e, l, post, tokenHash, rfl, hbinds, hlast, htoken, hissues.append⟩
  . obtain ⟨g, hg, htoken⟩ := hstep₃.exists_memory
      (P := fun g => g.inner.token = some (tokenHash', userId)) id ⟨g', hg', htoken'⟩
    exact absurd ⟨g, tokenHash', hg, htoken⟩ hlate

end Recovers

/--
A recovery that outruns nothing revokes everything older.
-/
theorem revokesOlder_of_recovers {pre tr' : List AccountEvent} {q₀ q₂ : AccountPool}
    (h : Recovers x userId hash i pre q₀ tr q₂ tr' q) (hnot : NotOutrun x userId hash i q₀ q₂ tr')
    : RevokesOlder x userId hash pre tr tr' q where
  tokens := h.tokens hnot
  sessions := h.sessions hnot

section Examples

/--
A test for a recovery by thread `i` that has succeeded. The revocation is event number `n` after the
password has been replaced.
-/
def isRecovery (userId hash : String) (i n : Nat)
    (test : List AccountEvent → AccountPool → Bool) (pre : List AccountEvent) (ev : AccountEvent)
    (post : List AccountEvent) (q : AccountPool) : Bool :=
  (match ev with
    | .act j _ _ (.rehashed userId' hash') => j = i && userId' = userId && hash' = hash
    | _ => false)
    && (match post[n]? with
      | some (.act j _ _ (.revoked userId')) => j = i && userId' = userId
      | _ => false)
    && (post.take n ++ post.drop (n + 1)).all (fun
      | .act _ _ _ l => !l.replacesPassword userId
      | .start .. => true)
    && (issuedHashes (pre ++ post.take n ++ post.drop (n + 1))).Nodup
    && q.Succeeded i && test (post.drop (n + 1)) q

theorem Recovers.exists_of_run {pre post : List AccountEvent} {ev : AccountEvent} {n : Nat}
    {test : List AccountEvent → AccountPool → Bool} (hp : p.Started) (hu : userId ≠ "")
    (hrun : Prog.Run (accounts x) (fun _ _ _ _ _ => True) p (pre ++ ev :: post) q)
    (htest : isRecovery userId hash i n test pre ev post q)
    : ∃ q₀ q₂, Recovers x userId hash i pre q₀ (post.take n) q₂ (post.drop (n + 1)) q
        ∧ test (post.drop (n + 1)) q := by
  simp only [isRecovery, Bool.and_eq_true, decide_eq_true_eq, List.all_eq_true] at htest
  obtain ⟨⟨⟨⟨⟨hrehash, hrevoke⟩, hkept⟩, hfresh⟩, hsucceeded⟩, htest⟩ := htest
  split at hrehash
  next j g₁ e₁ userId' hash' =>
    simp only [Bool.and_eq_true, decide_eq_true_eq] at hrehash
    obtain ⟨⟨rfl, rfl⟩, rfl⟩ := hrehash
    split at hrevoke
    next j' g₃ e₃ userId' hget =>
      simp only [Bool.and_eq_true, decide_eq_true_eq] at hrevoke
      obtain ⟨rfl, rfl⟩ := hrevoke
      obtain ⟨hn, hev⟩ := List.getElem?_eq_some_iff.1 hget
      have hpost : post = post.take n ++ .act j' g₃ e₃ (.revoked userId') :: post.drop (n + 1) := by
        rw [← hev]
        simp
      obtain ⟨q₀, q₁, hpre, hstep₁, hrest⟩ := hrun.split_at
      rw [hpost] at hrest
      obtain ⟨q₂, q₃, hrun₁, hstep₃, hrun₃⟩ := hrest.split_at
      refine ⟨q₀, q₂, ⟨hu, ⟨p, hp, hpre⟩, ⟨g₁, e₁, q₁, hstep₁, hrun₁⟩, ⟨g₃, e₃, q₃, hstep₃, hrun₃⟩, ?_,
        hfresh, hsucceeded⟩, htest⟩
      intro j g e l hmem hreplaces
      simpa [hreplaces] using hkept _ hmem
    next => contradiction
  next => contradiction

def recoverAccount : AccountRequest := .recover "uwe" "words" "new secret"

def withToken (token : String) : AccountEnv := { AccountEnv.calm with token }

/--
A login that has checked the old password before is logged in afterwards.
-/
def outrunLogin : List (Prog.Cmd AccountRequest AccountEnv) :=
  Prog.Cmd.serve (.login "uwe" "secret") 0 1 .calm
    ++ Prog.Cmd.serve recoverAccount 1 7 (withToken "r") ++ [.act 0 (withToken "l")]

/--
A session whose token has been looked up before is bound afterwards.
-/
def outrunCheck : List (Prog.Cmd AccountRequest AccountEnv) :=
  Prog.Cmd.serve (.websocket (.connect "s")) 0 1 .calm
    ++ Prog.Cmd.serve (.websocket (.message "s" .identify (.obj [("token", .str "t")]))) 1 2 .calm
    ++ Prog.Cmd.serve recoverAccount 2 7 (withToken "r") ++ [.act 1 .calm]

def isLoginOf (username password : String) : AccountRequest → Bool
  | .login username' password' => username' = username && password' = password
  | _ => false

/--
A test for the issue of a token by a login with a password.
-/
def issuesTo (userId tokenHash username password : String) : AccountEvent → Bool
  | .act _ g _ (.issued userId' tokenHash' _) =>
    userId' = userId && tokenHash' = tokenHash && isLoginOf username password g.req
  | _ => false

theorem exists_of_issuesTo {username password : String} {ev : AccountEvent}
    (h : issuesTo userId tokenHash username password ev)
    : ∃ i g e expiresAt, ev = .act i g e (.issued userId tokenHash expiresAt)
        ∧ g.req = .login username password := by
  unfold issuesTo at h
  split at h
  next i g e userId' tokenHash' expiresAt =>
    simp only [Bool.and_eq_true, decide_eq_true_eq] at h
    obtain ⟨⟨rfl, rfl⟩, hlogin⟩ := h
    refine ⟨i, g, e, expiresAt, rfl, ?_⟩
    unfold isLoginOf at hlogin
    split at hlogin
    next hreq =>
      simp only [Bool.and_eq_true, decide_eq_true_eq] at hlogin
      rw [hreq, hlogin.1, hlogin.2]
    next => contradiction
  next => contradiction

/--
A test for the binding of a session with a token.
-/
def bindsWith (tokenHash : String) : AccountEvent → Bool
  | .act _ g _ l => !l.isBound || g.inner.token.all (·.1 = tokenHash)
  | .start .. => true

theorem eq_of_bindsWith {tokenHash tokenHash' sid : String} (h : bindsWith tokenHash (.act i g e l))
    (hbinds : l.Binds sid userId) (htoken : g.inner.token = some (tokenHash', userId))
    : tokenHash' = tokenHash := by
  obtain ⟨on, sender, rfl⟩ := hbinds
  simpa [bindsWith, AccountLabel.isBound, htoken] using h

theorem Issues.mem_issuedHashes (h : Issues userId tokenHash tr) : tokenHash ∈ issuedHashes tr := by
  obtain ⟨i, g, e, expiresAt, hmem⟩ := h
  exact List.mem_filterMap.2 ⟨_, hmem, rfl⟩

def isLogin : AccountRequest → Bool
  | .login .. => true
  | _ => false

/--
A recovery that outruns a login leaves the token of the old password valid, and one that outruns the check
of an old token leaves its session bound.
-/
theorem recovers_without_revoking
    : (∃ pre q₀ tr q₂ tr' q, Recovers plainExternals "u" "new secret" 1 pre q₀ tr q₂ tr' q
        ∧ ¬ OldTokensRevoked plainExternals "u" "new secret" (pre ++ tr ++ tr') q)
      ∧ ∃ pre q₀ tr q₂ tr' q, Recovers plainExternals "u" "new secret" 2 pre q₀ tr q₂ tr' q
        ∧ ¬ OldSessionsUnbound "u" tr' q := by
  refine ⟨?_, ?_⟩
  . obtain ⟨pre, ev, post, q, hrun, htest⟩ := Prog.Run.exists_at_of_exec (accounts plainExternals)
      outrunLogin oneAccount 5
      (isRecovery "u" "new secret" 1 0 fun tr' q => tr'.any (issuesTo "u" "l" "uwe" "secret")
        && (q.state.app.accounts.sessions.lookup "l").any (·.userId = "u"))
      (by decide +kernel)
    obtain ⟨q₀, q₂, h, htest⟩ := Recovers.exists_of_run (started_idleAccounts _ _) (by decide) hrun htest
    simp only [Bool.and_eq_true, List.any_eq_true, Option.any_eq_true, decide_eq_true_eq] at htest
    obtain ⟨⟨ev', hmem, hissues⟩, row, hrow, huser⟩ := htest
    obtain ⟨i, g, e, expiresAt, rfl, hreq⟩ := exists_of_issuesTo hissues
    refine ⟨pre, q₀, _, q₂, _, q, h, fun hrevoked => ?_⟩
    exact hrevoked i g e "l" expiresAt "uwe" "secret" row (List.mem_append_right _ hmem) hreq (by decide)
      hrow huser
  . obtain ⟨pre, ev, post, q, hrun, htest⟩ := Prog.Run.exists_at_of_exec (accounts plainExternals)
      outrunCheck oneAccount 8
      (isRecovery "u" "new secret" 2 0 fun tr' q =>
        (q.state.app.players.lookup "s").any (·.userId = "u") && tr'.all (bindsWith "t")
          && "t" ∉ issuedHashes tr')
      (by decide +kernel)
    obtain ⟨q₀, q₂, h, htest⟩ := Recovers.exists_of_run (started_idleAccounts _ _) (by decide) hrun htest
    simp only [Bool.and_eq_true, List.all_eq_true, Option.any_eq_true, decide_eq_true_eq] at htest
    obtain ⟨⟨⟨player, hplayer, huser⟩, hwith⟩, hnew⟩ := htest
    refine ⟨pre, q₀, _, q₂, _, q, h, fun hunbound => ?_⟩
    obtain ⟨mid, i, g, e, l, late, tokenHash, htr, hbinds, -, htoken, hissues⟩ :=
      hunbound "s" player hplayer huser
    obtain rfl : tokenHash = "t" :=
      eq_of_bindsWith (hwith (.act i g e l) (htr ▸ List.mem_append_right _ List.mem_cons_self)) hbinds htoken
    exact hnew hissues.mem_issuedHashes

/--
A session that was there before the recovery is closed.
-/
theorem revokesOlder_of_recovers_closing
    : ∃ pre q₀ tr q₂ tr' q, Recovers plainExternals "u" "new secret" 2 pre q₀ tr q₂ tr' q
        ∧ (∃ i g e, .act i g e (.listed "u" ["s"]) ∈ tr')
        ∧ RevokesOlder plainExternals "u" "new secret" pre tr tr' q := by
  obtain ⟨pre, ev, post, q, hrun, htest⟩ := Prog.Run.exists_at_of_exec (accounts plainExternals)
    (Prog.Cmd.serve (.websocket (.connect "s")) 0 1 .calm
      ++ Prog.Cmd.serve (.websocket (.message "s" .identify (.obj [("token", .str "t")]))) 1 3 .calm
      ++ Prog.Cmd.serve recoverAccount 2 9 (withToken "r"))
    oneAccount 9
    (isRecovery "u" "new secret" 2 0 fun tr' _ => tr'.any (listsSession "u" "s")
      && tr'.all fun
        | .act _ g _ l => !l.isBound && !isLogin g.req
        | .start .. => true)
    (by decide +kernel)
  obtain ⟨q₀, q₂, h, htest⟩ := Recovers.exists_of_run (started_idleAccounts _ _) (by decide) hrun htest
  simp only [Bool.and_eq_true, List.all_eq_true, List.any_eq_true] at htest
  obtain ⟨⟨ev', hmem, hlists⟩, hquiet⟩ := htest
  obtain ⟨i, g, e, rfl⟩ := exists_of_listsSession hlists
  refine ⟨pre, q₀, _, q₂, _, q, h, ⟨i, g, e, hmem⟩, revokesOlder_of_recovers h ⟨?_, ?_⟩⟩
  . intro j g e tokenHash expiresAt username password hmem hreq
    simpa [hreq, isLogin] using hquiet _ hmem
  . rintro mid j g e l late sid htr ⟨on, sender, rfl⟩
    have hnot := hquiet _ (htr ▸ List.mem_append_right _ List.mem_cons_self)
    simp [AccountLabel.isBound] at hnot

end Examples

end Lqxp
