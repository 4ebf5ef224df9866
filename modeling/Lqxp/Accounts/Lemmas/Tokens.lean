import Lqxp.Accounts.Lemmas.Rows

/-!
This module contains what the steps of the services do to session tokens: who has looked one up, and where
the rows of the tokens come from.
-/

namespace Lqxp

variable {x : Externals} {g : AccountMemory} {e : AccountEnv} {s s' : AccountState} {l : AccountLabel}
variable {userId tokenHash : String} {tr : List AccountEvent}

namespace AccountMemory

theorem account_next (h : (g.next l).inner.account = some userId)
    : (g.inner.account = some userId ∧ (g.next l).inner.token = g.inner.token)
        ∨ ∃ on sender, l = .handled on sender (.account userId) := by
  cases l with
  | handled on sender label =>
    cases label with
    | account userId' =>
      obtain rfl := Option.some.inj h
      exact .inr ⟨on, sender, rfl⟩
    | token => simp [next, Memory.next] at h
    | wrote roomId record =>
      simp only [next, Memory.next] at h ⊢
      split at h
      . exact .inl ⟨h, rfl⟩
      . exact .inl ⟨h, rfl⟩
    | _ => exact .inl ⟨h, rfl⟩
  | closing => simp [next] at h
  | _ => exact .inl ⟨h, rfl⟩

theorem token_next (h : (g.next l).inner.token = some (tokenHash, userId))
    : g.inner.token = some (tokenHash, userId)
        ∨ ∃ on sender, l = .handled on sender (.token tokenHash userId) := by
  cases l with
  | handled on sender label =>
    cases label with
    | token tokenHash' userId' =>
      obtain ⟨rfl, rfl⟩ := Prod.mk.inj (Option.some.inj h)
      exact .inr ⟨on, sender, rfl⟩
    | wrote roomId record =>
      simp only [next, Memory.next] at h
      split at h
      . exact .inl h
      . exact .inl h
    | _ => exact .inl h
  | closing => simp [next] at h
  | _ => exact .inl h

end AccountMemory

theorem Transition.sessions {g : Memory} {e : Env} {s s' : AppState} {l : Label}
    (h : Transition g e s l s') : s'.accounts.sessions = s.accounts.sessions := by
  cases l with
  | quiet | broadcast | file => rw [h.accounts]
  | actor => rw [h.1.accounts]
  | disconnected => rw [h]
  | changed =>
    rw [h.1]
    rfl
  | bound =>
    obtain ⟨-, -, f, -, rfl⟩ := h
    rfl
  | _ => rw [h.1]

theorem AccountTransition.row (h : AccountTransition g e s l s') {row' : SessionRow}
    (hrow' : s'.app.accounts.sessions.lookup tokenHash = some row')
    : (∃ row, s.app.accounts.sessions.lookup tokenHash = some row ∧ row.userId = row'.userId)
        ∨ ∃ expiresAt, l = .issued row'.userId tokenHash expiresAt := by
  cases l with
  | handled on sender label => exact .inl ⟨row', h.1.sessions ▸ hrow', rfl⟩
  | issued userId tokenHash' expiresAt =>
    obtain ⟨rfl, -⟩ := h
    have hlookup := (AssocMap.lookup_insert tokenHash' tokenHash _ _).symm.trans hrow'
    split at hlookup
    next heq =>
      obtain rfl := Option.some.inj hlookup
      exact .inr ⟨expiresAt, by rw [heq]⟩
    next => exact .inl ⟨row', hlookup, rfl⟩
  | touched tokenHash' expiresAt =>
    obtain ⟨rfl, -⟩ := h
    have hlookup := (AssocMap.lookup_modify tokenHash' tokenHash _ _).symm.trans hrow'
    split at hlookup
    next =>
      obtain ⟨row, hrow, rfl⟩ := Option.map_eq_some_iff.1 hlookup
      exact .inl ⟨row, hrow, rfl⟩
    next => exact .inl ⟨row', hlookup, rfl⟩
  | revokedToken tokenHash' =>
    obtain ⟨rfl, -⟩ := h
    have hlookup := (AssocMap.lookup_erase tokenHash' tokenHash _).symm.trans hrow'
    split at hlookup
    . contradiction
    . exact .inl ⟨row', hlookup, rfl⟩
  | revoked userId =>
    obtain ⟨rfl, -⟩ := h
    have hlookup := (AssocMap.lookup_retain _ tokenHash _).symm.trans hrow'
    exact .inl ⟨row', (Option.filter_eq_some_iff.1 hlookup).1, rfl⟩
  | _ =>
    obtain ⟨rfl, -⟩ := h
    exact .inl ⟨row', hrow', rfl⟩

theorem AccountTransition.userId_ne_of_revoked (h : AccountTransition g e s (.revoked userId) s')
    {row : SessionRow} (hrow : s'.app.accounts.sessions.lookup tokenHash = some row)
    : row.userId ≠ userId := by
  obtain ⟨rfl, -⟩ := h
  have hlookup := (AssocMap.lookup_retain _ tokenHash _).symm.trans hrow
  simpa using (Option.filter_eq_some_iff.1 hlookup).2

/--
Who has accepted a token of an account has looked up a row of that account.
-/
def AccountMemory.Checked (g : AccountMemory) : Prop :=
  ∀ userId, g.inner.account = some userId → ∃ tokenHash, g.inner.token = some (tokenHash, userId)

theorem checked_step (h : AccountTransition g e s l s') (hkeyed : s.Keyed) (hchecked : g.Checked)
    : (g.next l).Checked := by
  intro userId haccount
  rcases AccountMemory.account_next haccount with ⟨hold, htoken⟩ | ⟨on, sender, rfl⟩
  . exact htoken ▸ hchecked userId hold
  . obtain ⟨⟨-, tokenHash, key, user, htoken, huser, hid, -⟩, -⟩ := h
    obtain rfl : key = userId := (hkeyed.users key user huser).symm.trans hid
    exact ⟨tokenHash, htoken⟩

namespace AccountPool

theorem checked_of_run {p q : AccountPool} (h : Prog.Run (accounts x) AccountTransition p tr q)
    (hkeyed : p.state.Keyed) (hp : ∀ th ∈ p.threads, th.memory.Checked)
    : ∀ th ∈ q.threads, th.memory.Checked := by
  refine (h.invariant AccountState.Keyed AccountMemory.Checked ?_ ?_ hkeyed hp).2
  . intro req userId haccount
    simp [accounts] at haccount
  . exact fun g e s l s' hstep hkeyed hchecked =>
      ⟨keyed_step hstep hkeyed, checked_step hstep hkeyed hchecked⟩

theorem Reachable.checked {q : AccountPool} (h : q.Reachable x) : ∀ th ∈ q.threads, th.memory.Checked := by
  obtain ⟨p, tr, hp, hrun⟩ := h
  obtain ⟨hrun, -⟩ := Ready.run hrun (by simp [Ready, hp.threads])
  exact checked_of_run hrun hp.keyed (by simp [hp.threads])

end AccountPool

end Lqxp
