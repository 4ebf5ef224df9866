import Lqxp.Accounts.Lemmas.Services
import Lqxp.Prog.Rely

/-!
This module contains the proof that every request is served by allowed steps only, so that every step of
every run of the server is an `AccountTransition`.
-/

namespace Lqxp

/--
A service that succeeds has made a `want`ed step.
-/
abbrev Effects (want : AccountLabel → Prop) (p : Api α) : Prop := Prog.Makes want (fun r => ∃ a, r = .ok a) p.run

namespace Effects

variable {want : AccountLabel → Prop} {p : Api α} {f : α → Api β}

theorem statement {g : AccountEnv → AccountState → ApiResult α × AccountLabel} (hg : ∀ e s, want (g e s).2)
    : Effects want (statement g) := by
  refine Prog.Makes.atom fun e s => ?_
  dsimp only
  split
  . refine .inr ?_
    rintro ⟨a, ha⟩
    contradiction
  . exact .inl (hg e s)

theorem throw (err : ApiError) : Effects want (throw err : Api α) := by
  rintro ⟨a, ha⟩
  contradiction

theorem bind (hp : Effects want p) : Effects want (p >>= f) := by
  refine Prog.Makes.bind hp fun r hr => ?_
  cases r with
  | ok a => exact absurd ⟨a, rfl⟩ hr
  | error err => exact throw err

theorem bind_right (hf : ∀ a, Effects want (f a)) : Effects want (p >>= f) := by
  refine Prog.Makes.bind_right fun r => ?_
  cases r with
  | ok a => exact hf a
  | error err => exact throw err

end Effects

variable {x : Externals} {g : AccountMemory}
variable {adm : AccountMemory → AccountEnv → AccountState → AccountLabel → AccountState → Prop}

namespace Auth

theorem register_sound {username password : String} (hg : Unlisted (.register username password) g)
    : ApiSound (fun _ => AccountMemory.Finished) (register x username password) g := by
  refine .bind <| .query fun registerEnabled => ?_
  dsimp only
  split
  . exact .bind (.throw _)
  split
  . exact .bind (.throw _)
  exact .bind <| .register fun result found => .pure (by simp [AccountMemory.Finished, hg.req])

theorem login_sound {username password : String} (hg : Unlisted (.login username password) g)
    : ApiSound (fun _ => AccountMemory.Finished) (login x username password) g := by
  exact .bind <| .login fun result found => .pure (by simp [AccountMemory.Finished, hg.req])

theorem recover_sound {username words password : String}
    (hg : Unlisted (.recover username words password) g) (hrehashed : g.rehashed = none)
    : ApiSound (fun _ => AccountMemory.Finished) (recover x username words password) g := by
  refine .bind <| .recover hg hrehashed fun result found => ?_
  refine .bind <| .lift <| .disconnectUserSessions fun g' hreq hrehashed' hevicts => .pure ?_
  simp only [AccountMemory.Finished, hreq, hg.req]
  exact ⟨_, hrehashed', hevicts⟩

theorem me_sound {token : String} (hg : Unlisted (.me token) g)
    : ApiSound (fun _ => AccountMemory.Finished) (me token) g := by
  refine .bind <| .me hg fun result g' hg' => ?_
  split
  . exact .pure (by simp [AccountMemory.Finished, hg'.req])
  . exact .throw _

theorem logout_sound {token : String} (hg : Unlisted (.logout token) g)
    : ApiSound (fun _ => AccountMemory.Finished) (logout token) g := by
  refine .bind <| .authenticate hg fun user g' hg' => .bind <| .deleteSession ?_
  cases user with
  | none => exact .pure (by simp [AccountMemory.Finished, hg'.req])
  | some user =>
    refine .bind <| .lift <| .disconnectUserSessions fun g'' hreq _ _ => .pure ?_
    simp [AccountMemory.Finished, hreq, hg'.req]

theorem deleteAccount_sound {token password : String} (hg : Unlisted (.deleteAccount token password) g)
    : ApiSound (fun _ => AccountMemory.Finished) (deleteAccount x token password) g := by
  refine .bind <| .authenticate hg fun user g' hg' => ?_
  split
  . refine .bind <| .deleteAccount hg' fun g'' hg'' => ?_
    refine .bind <| .lift <| .disconnectUserSessions fun g₃ hreq _ _ => .pure ?_
    simp [AccountMemory.Finished, hreq, hg''.req]
  . exact .throw _

theorem changeUsername_sound {user : AuthenticatedUser} {newUsername : String}
    (hg : Unlisted (.changeUsername user newUsername) g)
    : ApiSound (fun _ => AccountMemory.Finished) (changeUsername x user newUsername) g := by
  unfold changeUsername
  split
  . exact .bind (.throw _)
  refine .bind <| .changeUsername fun updated found => ?_
  refine .bind <| .lift <| .perform fun e s => ⟨⟨rfl, trivial⟩, ?_⟩
  refine .bind <| .announceRenamedAll fun g' hfollows => .pure ?_
  have hreq : g'.req = .changeUsername user newUsername := hfollows.req.trans hg.req
  simp [AccountMemory.Finished, hreq]

end Auth

namespace Admin

-- Its first step asks about a text, and to look for that step goes through the text's characters.
attribute [local irreducible] confirmedUser

theorem setUserDisabled_sound {admin : AuthenticatedUser} {userId : String} {disabled : Bool}
    (hg : Unlisted (.setUserDisabled admin userId disabled) g)
    : ApiSound (fun _ => AccountMemory.Finished) (setUserDisabled admin userId disabled) g := by
  refine .bind <| .result fun _ _ => .bind <| .statement fun _ _ => ⟨⟨rfl, ⟨_, hg.req⟩, hg.listed⟩, ?_⟩
  dsimp only [OnOk, AccountMemory.next]
  split
  . refine .bind <| (ApiKeeps.invalidateUserSessions hg).attempt fun _ => ?_
    refine .bind <| .lift <| .evictUser fun g' hreq _ hevicts => ?_
    refine .bind <| .confirmedUser fun user => .pure ?_
    simp [AccountMemory.Finished, hreq, hg.req, hevicts]
  next hdisabled =>
    refine .bind <| .confirmedUser fun user => .pure ?_
    simp [AccountMemory.Finished, hg.req, hdisabled]

theorem setUserBanned_sound {admin : AuthenticatedUser} {userId : String} {banned : Bool}
    (hg : Unlisted (.setUserBanned admin userId banned) g)
    : ApiSound (fun _ => AccountMemory.Finished) (setUserBanned admin userId banned) g := by
  refine .bind <| .result fun _ _ => .bind <| .statement fun _ _ => ⟨⟨rfl, ⟨_, hg.req⟩, hg.listed⟩, ?_⟩
  dsimp only [OnOk, AccountMemory.next]
  split
  . refine .bind <| (ApiKeeps.invalidateUserSessions hg).attempt fun _ => ?_
    refine .bind <| .lift <| .evictUser fun g' hreq _ hevicts => ?_
    refine .bind <| .confirmedUser fun user => .pure ?_
    simp [AccountMemory.Finished, hreq, hg.req, hevicts]
  next hbanned =>
    refine .bind <| .confirmedUser fun user => .pure ?_
    simp [AccountMemory.Finished, hg.req, hbanned]

theorem deleteUserAccount_sound {admin : AuthenticatedUser} {userId : String}
    (hg : Unlisted (.deleteUserAccount admin userId) g)
    : ApiSound (fun _ => AccountMemory.Finished) (deleteUserAccount admin userId) g := by
  refine .bind <| .result fun _ _ => .bind <| (ApiKeeps.deleteUserAccount hg (by simp)).sound fun _ => ?_
  refine .bind <| .lift <| .disconnectUserSessions fun g' hreq _ hevicts => .pure ?_
  simp [AccountMemory.Finished, hreq, hg.req, hevicts]

theorem purgeAccounts_sound {admin : AuthenticatedUser} {filter : PurgeFilter}
    (hg : Unlisted (.purgeAccounts admin filter) g)
    : ApiSound (fun _ => AccountMemory.Finished) (purgeAccounts x admin filter) g := by
  have hfinished : g.Finished := by simp [AccountMemory.Finished, hg.req]
  dsimp only [purgeAccounts]
  split
  . exact .bind (.throw _)
  refine .bind <| .bind <| .query fun candidates => .bind <| .lift <| .quiet fun adminIds => ?_
  exact .purgeAll hg (by simp) (fun count => .pure hfinished) candidates 0

end Admin

namespace AccountSound

theorem revalidateSession {sid : String}
    : AccountSound (fun _ g' => g' = g) (revalidateSession sid) g := by
  refine .bind <| .quiet fun now => .bind <| .quiet fun player => ?_
  cases player with
  | none => exact .pure rfl
  | some player =>
    dsimp only
    split
    . exact .pure rfl
    split
    . exact .pure rfl
    split
    . exact .pure rfl
    have hfind : ApiKeeps (findUserById player.userId) g := .statement fun _ _ => ⟨⟨rfl, trivial⟩, rfl⟩
    refine .bind <| Prog.Spec.mono hfind fun account g' hg' => ?_
    subst hg'
    split
    . exact .pure rfl
    . exact .pure rfl
    . split
      . exact .pure rfl
      . exact .bind <| .perform fun _ _ => ⟨⟨rfl, trivial⟩, .pure rfl⟩

theorem handle (req : AccountRequest)
    : AccountSound (OnOk fun _ => AccountMemory.Finished) ((accounts x).handle req)
        ((accounts x).start req) := by
  have hg : Unlisted req ((accounts x).start req) := ⟨rfl, rfl⟩
  cases req with
  | websocket req =>
    refine .bind <| Prog.Spec.mono (handled (Sound.handle req) (.handle req rfl) fun h => ?_) fun _ g' hend => ?_
    . simp [accounts, AccountRequest.isWebsocket] at h
    . simp [OnOk, AccountMemory.Finished, hend.2.req, accounts, Prog.Spec.done_iff]
  | revalidate sid => exact .bind <| Prog.Spec.mono revalidateSession fun _ g' hg' => by subst hg'; trivial
  | register username password => exact Auth.register_sound hg
  | login username password => exact Auth.login_sound hg
  | recover username words password => exact Auth.recover_sound hg rfl
  | me token => exact Auth.me_sound hg
  | logout token => exact Auth.logout_sound hg
  | deleteAccount token password => exact Auth.deleteAccount_sound hg
  | changeUsername user newUsername => exact Auth.changeUsername_sound hg
  | setUserDisabled admin userId disabled => exact Admin.setUserDisabled_sound hg
  | setUserBanned admin userId banned => exact Admin.setUserBanned_sound hg
  | deleteUserAccount admin userId => exact Admin.deleteUserAccount_sound hg
  | purgeAccounts admin filter => exact Admin.purgeAccounts_sound hg

end AccountSound

namespace AccountPool

/--
Whatever the threads of a pool still do, they do by allowed steps, and those that have succeeded have
done what they had to.
-/
def Ready (p : AccountPool) : Prop :=
  ∀ th ∈ p.threads, AccountSound (OnOk fun _ => AccountMemory.Finished) th.rest th.memory

theorem Ready.run {p q : AccountPool} {tr : List AccountEvent} (h : Prog.Run (accounts x) adm p tr q)
    (hp : p.Ready)
    : Prog.Run (accounts x) AccountTransition p tr q ∧ q.Ready := by
  obtain ⟨hrun, hready⟩ := h.of_spec AccountSound.handle hp
  exact ⟨hrun.mono fun _ _ _ _ _ h => h.2, hready⟩

theorem Ready.act {p q : AccountPool} {i : Nat} {e : AccountEnv} {l : AccountLabel}
    (h : Prog.Step (accounts x) adm p (.act i g e l) q) (hp : p.Ready)
    : AccountTransition g e p.state l q.state ∧ q.Ready := by
  refine ⟨?_, (Ready.run (.snoc (.nil p) h) hp).2⟩
  generalize hev : Prog.Event.act i g e l = ev at h
  cases h with
  | start => contradiction
  | act i g act rest env hthread hadm =>
    cases hev
    exact (hp _ (List.mem_of_getElem? hthread) e p.state).1

def Succeeded (p : AccountPool) (i : Nat) : Bool :=
  match p.threads[i]? with
  | some ⟨_, .done (.ok _)⟩ => true
  | _ => false

theorem Ready.finished {p : AccountPool} {i : Nat} (hp : p.Ready) (h : p.Succeeded i)
    : ∃ g, p.memory i = some g ∧ g.Finished := by
  unfold Succeeded at h
  split at h
  next g reply hth => exact ⟨g, by simp [Prog.Pool.memory, hth], hp _ (List.mem_of_getElem? hth)⟩
  next => contradiction

end AccountPool

end Lqxp
