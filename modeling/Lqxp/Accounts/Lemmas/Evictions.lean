import Lqxp.Accounts.Lemmas.Rows

/-!
This module contains what closing the listed sessions of an account achieves: the sessions that the account
still has have been bound since.
-/

namespace Lqxp

/--
A thread outside `late` has bound the session to the account, and it has not been bound since.
-/
def Rebound (late : Nat → Prop) (userId : String) (tr : List AccountEvent) (sid : String) : Prop :=
  ∃ pre i g e l post, tr = pre ++ .act i g e l :: post ∧ l.Binds sid userId ∧ ¬ late i
    ∧ ∀ j g e l userId', .act j g e l ∈ post → ¬ AccountLabel.Binds l sid userId'

/--
The threads in `late` bind the account to sessions only before thread `i` has listed these.
-/
def BindsBeforeListing (late : Nat → Prop) (userId : String) (i : Nat) (tr : List AccountEvent) : Prop :=
  ∀ pre j g e l post sid, tr = pre ++ .act j g e l :: post → l.Binds sid userId → late j →
    ∀ g e sids, .act i g e (.listed userId sids) ∉ pre

variable {x : Externals} {late : Nat → Prop} {userId sid : String} {i : Nat} {tr : List AccountEvent}

theorem BindsBeforeListing.of_append {tr' : List AccountEvent}
    (h : BindsBeforeListing late userId i (tr ++ tr')) : BindsBeforeListing late userId i tr := by
  rintro pre j g e l post sid rfl
  exact h pre j g e l (post ++ tr') sid (by simp)

theorem Rebound.snoc {ev : AccountEvent} (h : Rebound late userId tr sid)
    (hev : ∀ j g e l userId', ev = .act j g e l → ¬ AccountLabel.Binds l sid userId')
    : Rebound late userId (tr ++ [ev]) sid := by
  obtain ⟨pre, j, g, e, l, post, rfl, hbinds, hlate, hpost⟩ := h
  refine ⟨pre, j, g, e, l, post ++ [ev], by simp, hbinds, hlate, fun j g e l userId' hmem => ?_⟩
  rcases List.mem_append.1 hmem with hmem | hmem
  . exact hpost j g e l userId' hmem
  . exact hev j g e l userId' (List.mem_singleton.1 hmem).symm

/--
A thread that closes the sessions of an account, as it is seen while others run.
-/
structure Closing (late : Nat → Prop) (userId : String) (tr : List AccountEvent) (i : Nat) (s : AccountState)
    (g : AccountMemory) : Prop where
  websocket : g.req.isWebsocket = false
  unlisted : (∀ g e sids, .act i g e (.listed userId sids) ∉ tr) → ∀ sids, g.listed ≠ some (userId, sids)
  sessions (sids : List String) (sid : String) (player : PlayerSession)
    : g.listed = some (userId, sids) → s.app.players.lookup sid = some player → player.userId = userId →
        (sid ∈ sids ∧ sid ∉ g.evicted) ∨ Rebound late userId tr sid

namespace AccountMemory

@[simp]
theorem req_next (g : AccountMemory) (l : AccountLabel) : (g.next l).req = g.req := by
  cases l <;> rfl

theorem listed_next (g : AccountMemory) (l : AccountLabel)
    : (∃ userId sids, l = .listed userId sids ∧ (g.next l).listed = some (userId, sids)
          ∧ (g.next l).evicted = [])
        ∨ (g.next l).listed = g.listed
          ∧ ∀ sid ∈ (g.next l).evicted, sid ∈ g.evicted ∨ ∃ sender label, l = .handled (some sid) sender label := by
  cases l with
  | listed userId sids => exact .inl ⟨userId, sids, rfl, rfl, rfl⟩
  | handled on sender label =>
    refine .inr ⟨rfl, fun sid hmem => ?_⟩
    rcases List.mem_append.1 hmem with hnew | hold
    . exact .inr ⟨sender, label, by rw [Option.mem_toList.1 hnew]⟩
    . exact .inl hold
  | _ => exact .inr ⟨rfl, fun sid hmem => .inl hmem⟩

end AccountMemory

theorem req_of_run {p q : AccountPool} (h : Prog.Run (accounts x) AccountTransition p tr q)
    {g : AccountMemory} (hi : p.memory i = some g) : ∃ g', q.memory i = some g' ∧ g'.req = g.req := by
  refine h.memory_induction (fun _ _ m => ∃ g', m i = some g' ∧ g'.req = g.req) ⟨g, hi, rfl⟩ ?_ ?_
  . intro tr s m j req hj ⟨g', hg', hreq⟩
    have hij : i ≠ j := fun heq => by simp [heq, hj] at hg'
    exact ⟨g', by rw [Function.update_of_ne hij, hg'], hreq⟩
  . intro tr s m j acting e l s' hj hstep ⟨g', hg', hreq⟩
    by_cases hij : i = j
    . subst hij
      obtain rfl : g' = acting := Option.some.inj (hg'.symm.trans hj)
      exact ⟨g'.next l, Function.update_self .., by rw [AccountMemory.req_next, hreq]⟩
    . exact ⟨g', by rw [Function.update_of_ne hij, hg'], hreq⟩

variable {g g' : AccountMemory} {e : AccountEnv} {s s' : AccountState} {l : AccountLabel} {j : Nat}

theorem AccountTransition.session_of_not_binds (h : AccountTransition g e s l s') (hu : userId ≠ "")
    (hbinds : ¬ l.Binds sid userId) {player' : PlayerSession}
    (hplayer' : s'.app.players.lookup sid = some player') (huser' : player'.userId = userId)
    : ∃ player, s.app.players.lookup sid = some player ∧ player.userId = userId := by
  rcases h.session hplayer' with ⟨player, hplayer, -, huser⟩ | rfl | ⟨hbound, -⟩
  . exact ⟨player, hplayer, huser.trans huser'⟩
  . exact absurd huser'.symm hu
  . exact absurd (huser' ▸ hbound) hbinds

namespace Closing

theorem sessions_step (hclosing : Closing late userId tr i s g) (hu : userId ≠ "")
    {acting : AccountMemory} (h : AccountTransition acting e s l s')
    (hbefore : BindsBeforeListing late userId i (tr ++ [.act j acting e l]))
    {sids : List String} (hlisted : g.listed = some (userId, sids)) {player' : PlayerSession}
    (hplayer' : s'.app.players.lookup sid = some player') (huser' : player'.userId = userId)
    : (sid ∈ sids ∧ sid ∉ g.evicted) ∨ Rebound late userId (tr ++ [.act j acting e l]) sid := by
  by_cases hbinds : ∃ userId', l.Binds sid userId'
  . obtain ⟨userId', hbinds⟩ := hbinds
    obtain rfl : userId' = userId := (h.bound hbinds hplayer').symm.trans huser'
    by_cases hlate : late j
    . have hunlisted := hclosing.unlisted (hbefore tr j acting e l [] sid rfl hbinds hlate)
      exact absurd hlisted (hunlisted sids)
    . exact .inr ⟨tr, j, acting, e, l, [], rfl, hbinds, hlate, by simp⟩
  . have hnot (userId' : String) : ¬ l.Binds sid userId' := fun h => hbinds ⟨userId', h⟩
    obtain ⟨player, hplayer, huser⟩ := h.session_of_not_binds hu (hnot userId) hplayer' huser'
    rcases hclosing.sessions sids sid player hlisted hplayer huser with hopen | hrebound
    . exact .inl hopen
    . refine .inr (hrebound.snoc fun j' g' e' l' userId' hev => ?_)
      obtain ⟨-, -, -, rfl⟩ : j = j' ∧ acting = g' ∧ e = e' ∧ l = l' := by simpa using hev
      exact hnot userId'

theorem step_other (hclosing : Closing late userId tr i s g) (hu : userId ≠ "")
    {acting : AccountMemory} (h : AccountTransition acting e s l s')
    (hbefore : BindsBeforeListing late userId i (tr ++ [.act j acting e l]))
    : Closing late userId (tr ++ [.act j acting e l]) i s' g where
  websocket := hclosing.websocket
  unlisted hnever := hclosing.unlisted fun g e sids hmem => hnever g e sids (List.mem_append_left _ hmem)
  sessions _ _ _ hlisted hplayer' huser' :=
    hclosing.sessions_step hu h hbefore hlisted hplayer' huser'

theorem step_self (hclosing : Closing late userId tr i s g) (hkeyed : s.Keyed) (hu : userId ≠ "")
    (h : AccountTransition g e s l s')
    (hbefore : BindsBeforeListing late userId i (tr ++ [.act i g e l]))
    : Closing late userId (tr ++ [.act i g e l]) i s' (g.next l) := by
  refine ⟨by simp [hclosing.websocket], ?_, ?_⟩
  . intro hnever sids
    rcases g.listed_next l with ⟨userId', sids', rfl, hlisted, -⟩ | ⟨hlisted, -⟩
    . rw [hlisted]
      rintro ⟨⟩
      exact hnever g e sids (by simp)
    . rw [hlisted]
      exact hclosing.unlisted (fun g e sids hmem => hnever g e sids (List.mem_append_left _ hmem)) sids
  . intro sids sid player' hlisted' hplayer' huser'
    rcases g.listed_next l with ⟨userId', sids', rfl, hlisted, hevicted⟩ | ⟨hlisted, hevicted⟩
    . rw [hlisted] at hlisted'
      obtain ⟨rfl, rfl⟩ := Prod.mk.inj (Option.some.inj hlisted')
      obtain ⟨rfl, rfl⟩ := h
      refine .inl ⟨?_, by simp [hevicted]⟩
      refine List.mem_map.2 ⟨player', List.mem_filter.2 ⟨?_, by simpa using huser'⟩, ?_⟩
      . exact AssocMap.mem_values_of_lookup hplayer'
      . exact hkeyed.players sid player' hplayer'
    . rw [hlisted] at hlisted'
      rcases hclosing.sessions_step hu h hbefore hlisted' hplayer' huser' with ⟨hmem, hopen⟩ | hrebound
      . refine .inl ⟨hmem, fun hgone => ?_⟩
        rcases hevicted sid hgone with hgone | ⟨sender, label, rfl⟩
        . exact hopen hgone
        . rcases h.2.2.2.1 hclosing.websocket sid rfl with hgone | hnone
          . exact hopen hgone
          . simp [hnone] at hplayer'
      . exact .inr hrebound

theorem rebound (hclosing : Closing late userId tr i s g) (hevicts : g.Evicts userId)
    {player : PlayerSession} (hplayer : s.app.players.lookup sid = some player)
    (huser : player.userId = userId) : Rebound late userId tr sid := by
  obtain ⟨sids, hlisted, hgone⟩ := hevicts
  rcases hclosing.sessions sids sid player hlisted hplayer huser with ⟨hmem, hopen⟩ | hrebound
  . exact absurd (hgone sid hmem) hopen
  . exact hrebound

end Closing

theorem closing_of_run {p q : AccountPool} (h : Prog.Run (accounts x) AccountTransition p tr q)
    (hkeyed : p.state.Keyed) (hu : userId ≠ "") (hbefore : BindsBeforeListing late userId i tr)
    (hi : p.memory i = some g) (hwebsocket : g.req.isWebsocket = false) (hlisted : g.listed = none)
    : ∃ g, q.memory i = some g ∧ Closing late userId tr i q.state g := by
  suffices hall : BindsBeforeListing late userId i tr →
      q.state.Keyed ∧ ∃ g, q.memory i = some g ∧ Closing late userId tr i q.state g from
    (hall hbefore).2
  refine h.memory_induction (fun tr s m => BindsBeforeListing late userId i tr →
    s.Keyed ∧ ∃ g, m i = some g ∧ Closing late userId tr i s g) ?_ ?_ ?_
  . refine fun _ => ⟨hkeyed, g, hi, hwebsocket, by simp [hlisted], by simp [hlisted]⟩
  . intro tr s m j req hj ih hbefore
    obtain ⟨hkeyed, g, hg, hclosing⟩ := ih hbefore.of_append
    have hij : i ≠ j := fun heq => by simp [heq, hj] at hg
    refine ⟨hkeyed, g, by rw [Function.update_of_ne hij, hg], hclosing.websocket, ?_, ?_⟩
    . intro hnever
      exact hclosing.unlisted fun g e sids hmem => hnever g e sids (List.mem_append_left _ hmem)
    . intro sids sid player hlisted hplayer huser
      refine (hclosing.sessions sids sid player hlisted hplayer huser).imp_right fun hrebound => ?_
      exact hrebound.snoc (by simp)
  . intro tr s m j acting e l s' hj hstep ih hbefore
    obtain ⟨hkeyed, g, hg, hclosing⟩ := ih hbefore.of_append
    refine ⟨keyed_step hstep hkeyed, ?_⟩
    by_cases hij : i = j
    . subst hij
      obtain rfl : g = acting := Option.some.inj (hg.symm.trans hj)
      exact ⟨g.next l, Function.update_self .., hclosing.step_self hkeyed hu hstep hbefore⟩
    . exact ⟨g, by rw [Function.update_of_ne hij, hg], hclosing.step_other hu hstep hbefore⟩

theorem session_of_run {p q : AccountPool} (h : Prog.Run (accounts x) AccountTransition p tr q)
    (hu : userId ≠ "") {player : PlayerSession} (hplayer : q.state.app.players.lookup sid = some player)
    (huser : player.userId = userId)
    : (∃ player, p.state.app.players.lookup sid = some player ∧ player.userId = userId)
        ∨ ∃ i g e l, .act i g e l ∈ tr ∧ l.Binds sid userId := by
  induction h generalizing player with
  | nil => exact .inl ⟨player, hplayer, huser⟩
  | @snoc q r tr ev run step ih =>
    cases step with
    | start req =>
      refine (ih hplayer huser).imp_right fun ⟨i, g, e, l, hmem, hbinds⟩ => ?_
      exact ⟨i, g, e, l, List.mem_append_left _ hmem, hbinds⟩
    | act i g act rest env hthread hstep =>
      by_cases hbinds : (act env q.state).1.Binds sid userId
      . exact .inr ⟨i, g, env, _, by simp, hbinds⟩
      . obtain ⟨player, hplayer, huser⟩ := hstep.session_of_not_binds hu hbinds hplayer huser
        refine (ih hplayer huser).imp_right fun ⟨i, g, e, l, hmem, hbinds⟩ => ?_
        exact ⟨i, g, e, l, List.mem_append_left _ hmem, hbinds⟩

end Lqxp
