import Lqxp.Accounts.Lemmas.Evictions
import Lqxp.Accounts.Lemmas.Tokens
import Lqxp.Prog.Exec

/-!
This module contains the proof that accounts whose access an administrator has taken away have no sessions,
as long as no token check is overtaken by the removal and no purge meets a session.
-/

namespace Lqxp

/--
The ways in which administrators take the access of an account away.
-/
inductive Removal where
  | disabling
  | banning
  | deletion
  deriving DecidableEq

namespace Removal

def label (userId : String) : Removal → AccountLabel
  | .disabling => .disabled userId true
  | .banning => .banned userId true
  | .deletion => .deleted userId

def InForce (userId : String) (s : AccountState) : Removal → Prop
  | .disabling => ∀ user, s.app.accounts.users.lookup userId = some user → user.disabled = true
  | .banning => ∀ user, s.app.accounts.users.lookup userId = some user → user.banned = true
  | .deletion => s.app.accounts.users.lookup userId = none

/--
Which steps let the account in again.
-/
def UndoneBy (userId : String) : Removal → AccountLabel → Bool
  | _, .registered user _ => user.id = userId
  | .disabling, .disabled userId' value => userId' = userId && !value
  | .banning, .banned userId' value => userId' = userId && !value
  | _, _ => false

end Removal

/--
The services by which administrators take the access of accounts away.
-/
def AccountRequest.removes : Removal → AccountRequest → Bool
  | .disabling, .setUserDisabled .. | .banning, .setUserBanned .. | .deletion, .deleteUserAccount ..
  | .deletion, .purgeAccounts .. => true
  | _, _ => false

/--
The request by which an administrator takes the access of one account away.
-/
def Removal.request (admin : AuthenticatedUser) (userId : String) : Removal → AccountRequest
  | .disabling => .setUserDisabled admin userId true
  | .banning => .setUserBanned admin userId true
  | .deletion => .deleteUserAccount admin userId

theorem Removal.exists_label {x : Externals} {admin : AuthenticatedUser} {userId : String} (removal : Removal)
    {rely : AccountState → AccountState → Prop} {s s' : AccountState} {tr : List (AccountEnv × AccountLabel)}
    {reply : AccountReply}
    (run : Prog.Amid rely ((removal.request admin userId).handle x) s tr (.ok reply) s')
    : ∃ e, (e, removal.label userId) ∈ tr := by
  have hmakes : Prog.Makes (· = removal.label userId) (fun r => ∃ reply, r = .ok reply)
      ((removal.request admin userId).handle x) := by
    cases removal with
    | disabling => exact Effects.bind_right fun _ => Effects.bind (.statement fun _ _ => rfl)
    | banning => exact Effects.bind_right fun _ => Effects.bind (.statement fun _ _ => rfl)
    | deletion =>
      refine Effects.bind_right fun _ => Effects.bind (Effects.bind_right fun user => ?_)
      split
      . exact .bind (.throw _)
      refine .bind_right fun _ => .bind_right fun _ => .bind_right fun _ => ?_
      exact .statement fun _ _ => rfl
  obtain ⟨step, hmem, hlabel⟩ := hmakes.of_amid run ⟨reply, rfl⟩
  exact ⟨step.1, hlabel ▸ hmem⟩

def AccountRequest.purges : AccountRequest → Bool
  | .purgeAccounts .. => true
  | _ => false

def AccountState.HasSession (s : AccountState) (userId : String) : Prop :=
  ∃ player ∈ s.app.players.values, player.userId = userId

/--
From the reachable pool `q₀` on, thread `i` has removed an account and has succeeded by the time of `q`, and
nothing has let the account in again.
-/
structure Removes (x : Externals) (removal : Removal) (userId : String) (i : Nat) (q₀ : AccountPool)
    (g : AccountMemory) (tr : List AccountEvent) (q : AccountPool) : Prop where
  reachable : q₀.Reachable x
  run : ∃ e q₁, Prog.Step (accounts x) (fun _ _ _ _ _ => True) q₀ (.act i g e (removal.label userId)) q₁
    ∧ Prog.Run (accounts x) (fun _ _ _ _ _ => True) q₁ tr q
  account : userId ≠ ""
  removes : g.req.removes removal
  kept (j : Nat) (g : AccountMemory) (e : AccountEnv) (l : AccountLabel)
    : .act j g e l ∈ tr → ¬ removal.UndoneBy userId l
  succeeded : q.Succeeded i

instance (s : AccountState) (userId : String) : Decidable (s.HasSession userId) :=
  inferInstanceAs (Decidable (∃ player ∈ s.app.players.values, player.userId = userId))

/--
A purge deletes an account only while it has no session, and those whose check of a token of the account
came before the removal bind their sessions before the account's sessions are listed, if they are listed.
-/
structure NotOvertaken (userId : String) (i : Nat) (q₀ : AccountPool) (g : AccountMemory)
    (tr : List AccountEvent) : Prop where
  purge : g.req.purges → ¬ q₀.state.HasSession userId
  listing : BindsBeforeListing (fun j => ∃ g, q₀.memory j = some g ∧ g.inner.account = some userId) userId i tr
  unlisted : g.req.purges → ∀ j g e l sid, .act j g e l ∈ tr → l.Binds sid userId →
    ¬ ∃ g, q₀.memory j = some g ∧ g.inner.account = some userId

variable {x : Externals} {g : AccountMemory} {e : AccountEnv} {s s' : AccountState} {l : AccountLabel}
variable {userId : String} {removal : Removal} {i : Nat} {tr : List AccountEvent}

namespace Removal

theorem inForce_label (userId : String) (removal : Removal) (s : AccountState)
    : removal.InForce userId ((removal.label userId).apply s) := by
  cases removal with
  | disabling | banning =>
    intro user huser
    have hlookup := (AssocMap.lookup_modify_self userId _ _).symm.trans huser
    obtain ⟨user, -, rfl⟩ := Option.map_eq_some_iff.1 hlookup
    rfl
  | deletion => exact AList.lookup_erase userId _

theorem inForce_step (h : AccountTransition g e s l s') (hkept : ¬ removal.UndoneBy userId l)
    (hforce : removal.InForce userId s) : removal.InForce userId s' := by
  have hold {user' : StoredUser} (huser' : s'.app.accounts.users.lookup userId = some user')
      : ∃ user, s.app.accounts.users.lookup userId = some user
          ∧ (user.disabled = user'.disabled ∨ l = .disabled userId user'.disabled)
          ∧ (user.banned = user'.banned ∨ l = .banned userId user'.banned) := by
    rcases h.user huser' with ⟨user, huser, -, hflags⟩ | ⟨⟨secrets, hlabel⟩, hid⟩
    . exact ⟨user, huser, hflags⟩
    . exact absurd (by simp [hlabel, hid, UndoneBy]) hkept
  cases removal with
  | disabling =>
    intro user' huser'
    obtain ⟨user, huser, hsame | hlabel, -⟩ := hold huser'
    . exact hsame ▸ hforce user huser
    . by_contra hoff
      exact hkept (by simp [hlabel, UndoneBy, hoff])
  | banning =>
    intro user' huser'
    obtain ⟨user, huser, -, hsame | hlabel⟩ := hold huser'
    . exact hsame ▸ hforce user huser
    . by_contra hoff
      exact hkept (by simp [hlabel, UndoneBy, hoff])
  | deletion =>
    refine Option.eq_none_iff_forall_ne_some.2 fun user' huser' => ?_
    obtain ⟨user, huser, -⟩ := hold huser'
    exact absurd huser (by simp [show s.app.accounts.users.lookup userId = none from hforce])

theorem not_account (h : AccountTransition g e s l s') (hkeyed : s.Keyed)
    (hforce : removal.InForce userId s) (on : Option String) (sender : Option PlayerSession)
    : l ≠ .handled on sender (.account userId) := by
  rintro rfl
  obtain ⟨⟨-, tokenHash, key, user, -, huser, hid, hdisabled, hbanned⟩, -⟩ := h
  obtain rfl : key = userId := (hkeyed.users key user huser).symm.trans hid
  cases removal with
  | disabling => simp [hforce user huser] at hdisabled
  | banning => simp [hforce user huser] at hbanned
  | deletion => exact absurd huser (by simp [show s.app.accounts.users.lookup key = none from hforce])

end Removal

theorem checked_of_run {p q : AccountPool} (h : Prog.Run (accounts x) AccountTransition p tr q)
    (hkeyed : p.state.Keyed) (hforce : removal.InForce userId p.state)
    (hkept : ∀ j g e l, .act j g e l ∈ tr → ¬ removal.UndoneBy userId l) {j : Nat}
    (hj : q.memory j = some g) (haccount : g.inner.account = some userId)
    : ∃ g, p.memory j = some g ∧ g.inner.account = some userId := by
  suffices hall : (∀ j g e l, .act j g e l ∈ tr → ¬ removal.UndoneBy userId l) →
      q.state.Keyed ∧ removal.InForce userId q.state
        ∧ ∀ j g, q.memory j = some g → g.inner.account = some userId →
            ∃ g, p.memory j = some g ∧ g.inner.account = some userId from
    (hall hkept).2.2 j g hj haccount
  refine h.memory_induction (fun tr s m =>
    (∀ j g e l, .act j g e l ∈ tr → ¬ removal.UndoneBy userId l) → s.Keyed ∧ removal.InForce userId s
      ∧ ∀ j g, m j = some g → g.inner.account = some userId →
          ∃ g, p.memory j = some g ∧ g.inner.account = some userId) ?_ ?_ ?_
  . exact fun _ => ⟨hkeyed, hforce, fun j g hg haccount => ⟨g, hg, haccount⟩⟩
  . intro tr s m i req hi ih hkept
    obtain ⟨hkeyed, hforce, hchecked⟩ := ih fun j g e l hmem => hkept j g e l (List.mem_append_left _ hmem)
    refine ⟨hkeyed, hforce, fun j g hg haccount => ?_⟩
    by_cases hji : j = i
    . subst hji
      rw [Function.update_self] at hg
      obtain rfl := Option.some.inj hg
      simp [accounts] at haccount
    . rw [Function.update_of_ne hji] at hg
      exact hchecked j g hg haccount
  . intro tr s m i acting e l s' hi hstep ih hkept
    obtain ⟨hkeyed, hforce, hchecked⟩ := ih fun j g e l hmem => hkept j g e l (List.mem_append_left _ hmem)
    have hforce' := Removal.inForce_step hstep (hkept i acting e l (by simp)) hforce
    refine ⟨keyed_step hstep hkeyed, hforce', fun j g hg haccount => ?_⟩
    by_cases hji : j = i
    . subst hji
      rw [Function.update_self] at hg
      obtain rfl := Option.some.inj hg
      rcases AccountMemory.account_next haccount with ⟨hold, -⟩ | ⟨on, sender, hlabel⟩
      . exact hchecked j acting hi hold
      . exact absurd hlabel (Removal.not_account hstep hkeyed hforce on sender)
    . rw [Function.update_of_ne hji] at hg
      exact hchecked j g hg haccount

theorem checked_of_binds {p q : AccountPool} (h : Prog.Run (accounts x) AccountTransition p tr q)
    (hkeyed : p.state.Keyed) (hforce : removal.InForce userId p.state)
    (hkept : ∀ j g e l, .act j g e l ∈ tr → ¬ removal.UndoneBy userId l) {j : Nat} {sid : String}
    (hmem : .act j g e l ∈ tr) (hbinds : l.Binds sid userId)
    : ∃ g, p.memory j = some g ∧ g.inner.account = some userId := by
  obtain ⟨pre, post, rfl⟩ := List.append_of_mem hmem
  obtain ⟨q₁, q₂, hpre, hstep, -⟩ := h.split_at
  obtain ⟨htransition, hmemory, -⟩ := hstep.memory_act
  obtain ⟨on, sender, rfl⟩ := hbinds
  refine checked_of_run hpre hkeyed hforce (fun j g e l hmem => ?_) hmemory htransition.1.2.1
  exact hkept j g e l (List.mem_append_left _ hmem)

theorem Removal.evicts {g' : AccountMemory} (hremoves : g.req.removes removal)
    (hpurges : g.req.purges = false) (hpermits : g.Permits (removal.label userId)) (hreq : g'.req = g.req)
    (hfinished : g'.Finished) : g'.Evicts userId := by
  unfold AccountMemory.Finished at hfinished
  rw [hreq] at hfinished
  cases removal with
  | disabling | banning =>
    obtain ⟨⟨admin, hadmin⟩, -⟩ := hpermits
    rw [hadmin] at hfinished
    exact hfinished rfl
  | deletion =>
    cases hrequest : g.req with
    | deleteUserAccount admin target =>
      rw [hrequest] at hfinished
      rw [hpermits.2 admin target hrequest]
      exact hfinished
    | _ => simp [hrequest, AccountRequest.removes, AccountRequest.purges] at hremoves hpurges

theorem not_hasSession_of_removes {q₀ q : AccountPool} (h : Removes x removal userId i q₀ g tr q)
    (hnot : NotOvertaken userId i q₀ g tr) : ¬ q.state.HasSession userId := by
  obtain ⟨hready₀, hkeyed₀⟩ := h.reachable.ready
  obtain ⟨e, q₁, hstep, hrun⟩ := h.run
  obtain ⟨-, -, hmemory₁⟩ := hstep.memory_act
  obtain ⟨htransition, hready₁⟩ := hready₀.act hstep
  obtain ⟨hrun, hready⟩ := hready₁.run hrun
  have hkeyed₁ : q₁.state.Keyed := keyed_step htransition hkeyed₀
  have heffect : q₁.state = (removal.label userId).apply q₀.state ∧ g.Permits (removal.label userId) := by
    cases removal <;> exact htransition
  obtain ⟨heffect, hpermits⟩ := heffect
  have hforce : removal.InForce userId q₁.state := heffect ▸ removal.inForce_label userId q₀.state
  -- The removal itself checks no tokens.
  have hchecked (j : Nat) (hj : ∃ g, q₁.memory j = some g ∧ g.inner.account = some userId)
      : ∃ g, q₀.memory j = some g ∧ g.inner.account = some userId :=
    hstep.exists_memory (P := fun g => g.inner.account = some userId) (by cases removal <;> exact id) hj
  have hlate {j : Nat} {g : AccountMemory} {e : AccountEnv} {l : AccountLabel} {sid : String}
      (hmem : .act j g e l ∈ tr) (hbinds : l.Binds sid userId)
      : ∃ g, q₀.memory j = some g ∧ g.inner.account = some userId :=
    hchecked j (checked_of_binds hrun hkeyed₁ hforce h.kept hmem hbinds)
  rintro ⟨player, hmem, huser⟩
  obtain ⟨sid, hplayer⟩ := AssocMap.exists_lookup_of_mem_values hmem
  by_cases hpurges : g.req.purges
  . rcases session_of_run hrun h.account hplayer huser with ⟨player, hplayer, huser⟩
      | ⟨j, g', e', l, hmem, hbinds⟩
    . refine hnot.purge hpurges ⟨player, AssocMap.mem_values_of_lookup (k := sid) ?_, huser⟩
      rw [heffect] at hplayer
      cases removal <;> exact hplayer
    . exact hnot.unlisted hpurges j g' e' l sid hmem hbinds (hlate hmem hbinds)
  . have hlisted : (g.next (removal.label userId)).listed = none := by
      cases removal with
      | disabling | banning => exact hpermits.2
      | deletion => exact hpermits.1
    have hwebsocket : (g.next (removal.label userId)).req.isWebsocket = false := by
      rw [AccountMemory.req_next]
      have hremoves := h.removes
      cases hreq : g.req <;> simp_all [AccountRequest.removes, AccountRequest.isWebsocket]
    have hi : q₁.memory i = some (g.next (removal.label userId)) := by
      rw [hmemory₁, Function.update_self]
      rfl
    obtain ⟨g', hg', hclosing⟩ := closing_of_run hrun hkeyed₁ h.account hnot.listing hi hwebsocket hlisted
    obtain ⟨g'', hg'', hreq⟩ := req_of_run hrun hi
    obtain ⟨g₃, hg₃, hfinished⟩ := hready.finished h.succeeded
    obtain rfl : g' = g'' := Option.some.inj (hg'.symm.trans hg'')
    obtain rfl : g' = g₃ := Option.some.inj (hg'.symm.trans hg₃)
    have hevicts : g'.Evicts userId :=
      Removal.evicts h.removes (Bool.eq_false_iff.2 hpurges) hpermits
        (hreq.trans (AccountMemory.req_next _ _)) hfinished
    obtain ⟨pre, j, g, e, l, post, rfl, hbinds, hnotLate, -⟩ := hclosing.rebound hevicts hplayer huser
    exact hnotLate (hlate (List.mem_append_right _ List.mem_cons_self) hbinds)

section Examples

/--
A test for the step with which thread `i` removes an account.
-/
def Removal.isStep (userId : String) (i : Nat) (removal : Removal) : AccountEvent → Bool
  | .act j g _ l =>
    j = i && g.req.removes removal
      && match removal, l with
        | .disabling, .disabled userId' value | .banning, .banned userId' value => userId' = userId && value
        | .deletion, .deleted userId' => userId' = userId
        | _, _ => false
  | .start .. => false

theorem Removal.exists_of_isStep {ev : AccountEvent} (h : removal.isStep userId i ev)
    : ∃ g e, ev = .act i g e (removal.label userId) ∧ g.req.removes removal := by
  cases ev with
  | start => simp [isStep] at h
  | act j g e l =>
    simp only [isStep, Bool.and_eq_true, decide_eq_true_eq] at h
    obtain ⟨⟨rfl, hremoves⟩, hlabel⟩ := h
    refine ⟨g, e, ?_, hremoves⟩
    split at hlabel
    . simp_all [Removal.label]
    . simp_all [Removal.label]
    . simp_all [Removal.label]
    . contradiction

/--
A test for a removal by thread `i` that has succeeded and has not been undone.
-/
def Removal.isRun (userId : String) (i : Nat) (removal : Removal)
    (test : AccountMemory → List AccountEvent → AccountPool → Bool) (_ : List AccountEvent)
    (ev : AccountEvent) (post : List AccountEvent) (q : AccountPool) : Bool :=
  removal.isStep userId i ev
    && post.all (fun
      | .act _ _ _ l => !removal.UndoneBy userId l
      | .start .. => true)
    && q.Succeeded i
    && match ev with
      | .act _ g _ _ => test g post q
      | .start .. => false

theorem Removes.exists_of_run {p q : AccountPool} {pre post : List AccountEvent} {ev : AccountEvent}
    {test : AccountMemory → List AccountEvent → AccountPool → Bool} (hp : p.Started) (hu : userId ≠ "")
    (hrun : Prog.Run (accounts x) (fun _ _ _ _ _ => True) p (pre ++ ev :: post) q)
    (htest : removal.isRun userId i test pre ev post q)
    : ∃ q₀ g, Removes x removal userId i q₀ g post q ∧ test g post q := by
  simp only [Removal.isRun, Bool.and_eq_true, List.all_eq_true] at htest
  obtain ⟨⟨⟨hstep, hkept⟩, hsucceeded⟩, htest⟩ := htest
  obtain ⟨g, e, rfl, hremoves⟩ := Removal.exists_of_isStep hstep
  obtain ⟨q₀, q₁, hpre, hact, hpost⟩ := hrun.split_at
  refine ⟨q₀, g, ⟨⟨p, pre, hp, hpre⟩, ⟨e, q₁, hact, hpost⟩, hu, hremoves, ?_, hsucceeded⟩, htest⟩
  intro j g' e' l hmem hundone
  simpa [hundone] using hkept _ hmem

def administrator : AuthenticatedUser :=
  { id := "a", username := "ada", profile := {}, status := .online, disabled := false, banned := false,
    admin := true, badges := [], customBadges := [], createdAt := 0 }

/--
The account may keep a session: one whose token was checked before the account was disabled, and any when
a purge deletes the account.
-/
theorem removes_with_session
    : (∃ q₀ g tr q, Removes plainExternals .disabling "u" 2 q₀ g tr q ∧ q.state.HasSession "u")
      ∧ ∃ q₀ g tr q, Removes plainExternals .deletion "u" 2 q₀ g tr q ∧ g.req.purges
          ∧ q.state.HasSession "u" := by
  refine ⟨?_, ?_⟩
  . obtain ⟨pre, ev, tr, q, hrun, htest⟩ := Prog.Run.exists_at_of_exec (accounts plainExternals)
      (checkToken ++ Prog.Cmd.serve (.setUserDisabled administrator "u" true) 2 4 .calm ++ [.act 1 .calm])
      oneAccount 6 (Removal.isRun "u" 2 .disabling fun _ _ q => q.state.HasSession "u")
      (by decide +kernel)
    obtain ⟨q₀, g, h, htest⟩ := Removes.exists_of_run (started_idleAccounts _ _) (by decide) hrun htest
    exact ⟨q₀, g, tr, q, h, of_decide_eq_true htest⟩
  . obtain ⟨pre, ev, tr, q, hrun, htest⟩ := Prog.Run.exists_at_of_exec (accounts plainExternals)
      (checkToken ++ [.act 1 .calm] ++ Prog.Cmd.serve (.purgeAccounts administrator {}) 2 7 .calm)
      oneAccount 13 (Removal.isRun "u" 2 .deletion fun g _ q => g.req.purges && q.state.HasSession "u")
      (by decide +kernel)
    obtain ⟨q₀, g, h, htest⟩ := Removes.exists_of_run (started_idleAccounts _ _) (by decide) hrun htest
    simp only [Bool.and_eq_true, decide_eq_true_eq] at htest
    exact ⟨q₀, g, tr, q, h, htest⟩

/--
A session that was there before the account was disabled is closed.
-/
theorem not_hasSession_of_removes_disabling
    : ∃ q₀ g tr q, Removes plainExternals .disabling "u" 2 q₀ g tr q
        ∧ (∃ i g e, .act i g e (.listed "u" ["s"]) ∈ tr) ∧ ¬ q.state.HasSession "u" := by
  obtain ⟨pre, ev, tr, q, hrun, htest⟩ := Prog.Run.exists_at_of_exec (accounts plainExternals)
    (checkToken ++ [.act 1 .calm]
      ++ Prog.Cmd.serve (.setUserDisabled administrator "u" true) 2 6 .calm)
    oneAccount 7 (Removal.isRun "u" 2 .disabling fun g tr _ => !g.req.purges
      && tr.all (fun
        | .act _ _ _ l => !l.isBound
        | .start .. => true)
      && tr.any (listsSession "u" "s"))
    (by decide +kernel)
  obtain ⟨q₀, g, h, htest⟩ := Removes.exists_of_run (started_idleAccounts _ _) (by decide) hrun htest
  simp only [Bool.and_eq_true, List.all_eq_true, List.any_eq_true] at htest
  obtain ⟨⟨hpurges, hunbound⟩, ev', hmem, hlisted⟩ := htest
  have hpurges : g.req.purges = false := by simpa using hpurges
  have hnever {j : Nat} {g' : AccountMemory} {e : AccountEnv} {l : AccountLabel} {sid : String}
      (hmem : .act j g' e l ∈ tr) : ¬ l.Binds sid "u" := by
    rintro ⟨on, sender, rfl⟩
    simpa [AccountLabel.isBound] using hunbound _ hmem
  refine ⟨q₀, g, tr, q, h, ?_, not_hasSession_of_removes h ⟨by simp [hpurges], ?_, by simp [hpurges]⟩⟩
  . obtain ⟨i, g', e, rfl⟩ := exists_of_listsSession hlisted
    exact ⟨i, g', e, hmem⟩
  . rintro pre' j g' e l post sid rfl hbinds
    exact absurd hbinds (hnever (List.mem_append_right _ List.mem_cons_self))

end Examples

end Lqxp
