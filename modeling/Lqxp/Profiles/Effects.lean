import Lqxp.Data.ReadThrough
import Lqxp.Profiles.Tables

/-!
This module contains what the services that change public profiles do to the rows of the accounts and to the cache of
public profiles in an uninterrupted run, and that they keep the cache coherent unless a service forgets a key.
-/

namespace Lqxp

open AccountDatabase (Sheds Rewrites)

section Purges

variable {s s' : AccountState} {tr : List (AccountEnv × AccountLabel)} {x : Externals} {filter : PurgeFilter}

def AccountDatabase.purgeTargets (x : Externals) (db : AccountDatabase) (filter : PurgeFilter) : List String :=
  let rows := db.users.values.filter (filter.isCandidate x)
  (rows.filter fun user => AccountDatabase.isPurged filter db.adminIds user.id user.username).map (·.id)

theorem trace_purgeAll {adminIds : List String} {candidates : List (String × String)} {count : Nat} {r : ApiResult Nat}
    (h : Prog.Trace (AccountDatabase.purgeAll filter adminIds candidates count).run s tr r s')
    : ∃ ids, Sheds ids s.app.accounts s'.app.accounts
        ∧ ∀ id ∈ ids, ∃ name, (id, name) ∈ candidates ∧ AccountDatabase.isPurged filter adminIds id name = true := by
  induction candidates generalizing count s tr with
  | nil =>
    obtain ⟨-, -, rfl⟩ := Prog.trace_run_pure_iff.1 h
    exact ⟨[], sheds_of_rows rfl, fun _ h => nomatch h⟩
  | cons candidate candidates ih =>
    obtain ⟨id, name⟩ := candidate
    have hlater {s₁ : AccountState} {tr₁ : List (AccountEnv × AccountLabel)} {count : Nat}
        (h : Prog.Trace (AccountDatabase.purgeAll filter adminIds candidates count).run s₁ tr₁ r s')
        : ∃ ids, Sheds ids s₁.app.accounts s'.app.accounts
            ∧ ∀ id' ∈ ids, ∃ name', (id', name') ∈ (id, name) :: candidates
              ∧ AccountDatabase.isPurged filter adminIds id' name' = true := by
      obtain ⟨ids, hsheds, hids⟩ := ih h
      refine ⟨ids, hsheds, fun id' hid' => ?_⟩
      obtain ⟨name', hmem, hpurged⟩ := hids id' hid'
      exact ⟨name', .tail _ hmem, hpurged⟩
    unfold AccountDatabase.purgeAll at h
    split at h
    next hpurged =>
      obtain ⟨deleted, s₁, tr₁, tr₂, hdelete, hrest, rfl⟩ := Prog.trace_run_lift_bind_iff.1 h
      clear h
      rcases trace_deleteUserAccount hdelete with ⟨⟨err, rfl⟩, hsheds⟩ | ⟨rfl, hsheds⟩
      . obtain ⟨ids, hsheds', hids⟩ := hlater hrest
        exact ⟨ids, hsheds.trans hsheds', hids⟩
      . obtain ⟨ids, hsheds', hids⟩ := hlater hrest
        refine ⟨id :: ids, hsheds.trans hsheds', fun id' hid' => ?_⟩
        rcases List.mem_cons.1 hid' with rfl | hid'
        . exact ⟨name, List.mem_cons_self, hpurged⟩
        . exact hids id' hid'
    next => exact hlater h

theorem trace_purgeAccounts {admin : AuthenticatedUser} {r : ApiResult AccountReply}
    (h : Prog.Trace (Admin.purgeAccounts x admin filter).run s tr r s')
    : ∃ ids, Sheds ids s.app.accounts s'.app.accounts ∧ (ids = [] ∨ admin.admin = true)
        ∧ ids ⊆ s.app.accounts.purgeTargets x filter := by
  have hnothing (hrows : s'.rows = s.rows)
      : ∃ ids, Sheds ids s.app.accounts s'.app.accounts ∧ (ids = [] ∨ admin.admin = true)
          ∧ ids ⊆ s.app.accounts.purgeTargets x filter :=
    ⟨[], sheds_of_rows hrows, .inl rfl, List.nil_subset _⟩
  unfold Admin.purgeAccounts at h
  split at h
  . obtain ⟨-, -, rfl⟩ := Prog.trace_done_iff.1 h
    exact hnothing rfl
  next hadmin =>
    have hadmin' : admin.admin = true := by simpa using hadmin
    have hpurge {r : ApiResult Nat} {tr : List (AccountEnv × AccountLabel)}
        (h : Prog.Trace (AccountDatabase.purgeAccounts x filter).run s tr r s')
        : ∃ ids, Sheds ids s.app.accounts s'.app.accounts ∧ (ids = [] ∨ admin.admin = true)
            ∧ ids ⊆ s.app.accounts.purgeTargets x filter := by
      obtain ⟨err, -, hcandidates⟩ | ⟨candidates, s₁, tr₁, tr₂, hcandidates, hrest, rfl⟩ := Prog.trace_run_bind_iff.1 h
      . obtain ⟨e, ⟨-, -, -, rfl⟩ | ⟨-, -, -, rfl⟩⟩ := trace_statement hcandidates
        . exact hnothing rfl
        . exact hnothing rfl
      obtain ⟨e, ⟨-, -, herr, -⟩ | ⟨-, -, hok, rfl⟩⟩ := trace_statement hcandidates
      . contradiction
      obtain rfl := Except.ok.inj hok
      obtain ⟨adminIds, s₂, tr₃, tr₄, hadmins, hrest', rfl⟩ := Prog.trace_run_lift_bind_iff.1 hrest
      obtain ⟨e', -, rfl, rfl⟩ := trace_perform hadmins
      obtain ⟨ids, hsheds, hids⟩ := trace_purgeAll hrest'
      refine ⟨ids, hsheds, .inr hadmin', fun id hid => ?_⟩
      obtain ⟨name, hmem, hpurged⟩ := hids id hid
      obtain ⟨user, huser, heq⟩ := List.mem_map.1 hmem
      obtain ⟨rfl, rfl⟩ := Prod.mk.inj heq
      exact List.mem_map.2 ⟨user, List.mem_filter.2 ⟨huser, hpurged⟩, rfl⟩
    obtain ⟨err, -, hfails⟩ | ⟨count, s₁, tr₁, tr₂, hfirst, hdone, rfl⟩ := Prog.trace_run_bind_iff.1 h
    . exact hpurge hfails
    . obtain ⟨-, -, rfl⟩ := Prog.trace_run_pure_iff.1 hdone
      exact hpurge hfirst

end Purges

section Deletions

variable {s s' : AccountState} {tr : List (AccountEnv × AccountLabel)} {x : Externals}

theorem trace_deleteAccount {token password : String} {r : ApiResult Unit}
    (h : Prog.Trace (AccountDatabase.deleteAccount x token password).run s tr r s')
    : (∃ err, r = .error err) ∧ Sheds [] s.app.accounts s'.app.accounts
        ∨ r = .ok () ∧ ∃ row, s.app.accounts.tokenUser? token = some row
          ∧ Sheds [row.id] s.app.accounts s'.app.accounts := by
  obtain ⟨err, rfl, hauth⟩ | ⟨found, s₁, tr₁, tr₂, hauth, hrest, rfl⟩ := Prog.trace_run_bind_iff.1 h
  . obtain ⟨happ, -⟩ := trace_authenticate hauth
    exact .inl ⟨⟨err, rfl⟩, sheds_of_rows (by rw [AccountState.rows, happ]; rfl)⟩
  obtain ⟨happ, hfound⟩ := trace_authenticate hauth
  clear h hauth
  split at hrest
  next user =>
    obtain ⟨row, hrow, rfl⟩ := hfound user rfl
    have hdelete : (∃ err, r = .error err) ∧ Sheds [] s₁.app.accounts s'.app.accounts
        ∨ r = .ok () ∧ Sheds [row.id] s₁.app.accounts s'.app.accounts := by
      refine sheds_after_rows (preserves_findUserById _) (fun stored s₂ tr₃ hrest => ?_) hrest
      split at hrest
      . split at hrest
        . obtain ⟨-, rfl, rfl⟩ := Prog.trace_done_iff.1 hrest
          exact .inl ⟨⟨_, rfl⟩, sheds_of_rows rfl⟩
        . exact trace_deleteUserAccount hrest
      . obtain ⟨-, rfl, rfl⟩ := Prog.trace_done_iff.1 hrest
        exact .inl ⟨⟨_, rfl⟩, sheds_of_rows rfl⟩
    rw [happ] at hdelete
    exact hdelete.imp_right fun ⟨hok, hsheds⟩ => ⟨hok, row, hrow, hsheds⟩
  next =>
    obtain ⟨-, rfl, rfl⟩ := Prog.trace_done_iff.1 hrest
    exact .inl ⟨⟨_, rfl⟩, sheds_of_rows (by rw [AccountState.rows, happ]; rfl)⟩

theorem trace_adminDeleteUserAccount {admin : AuthenticatedUser} {userId : String} {r : ApiResult AccountReply}
    (h : Prog.Trace (Admin.deleteUserAccount admin userId).run s tr r s')
    : (∃ err, r = .error err) ∧ Sheds [] s.app.accounts s'.app.accounts
        ∨ (∃ reply, r = .ok reply) ∧ admin.admin = true ∧ Sheds [userId] s.app.accounts s'.app.accounts := by
  obtain ⟨err, rfl, hcheck⟩ | ⟨u, s₁, tr₁, tr₂, hcheck, hrest, rfl⟩ := Prog.trace_run_bind_iff.1 h
  . obtain ⟨-, -, rfl⟩ := Prog.trace_done_iff.1 hcheck
    exact .inl ⟨⟨err, rfl⟩, sheds_of_rows rfl⟩
  obtain ⟨-, hok, rfl⟩ := Prog.trace_done_iff.1 hcheck
  have hadmin : admin.admin = true := by
    unfold Admin.checkAdmin at hok
    split at hok
    . contradiction
    next hadmin => simpa using hadmin
  obtain ⟨err, rfl, hdelete⟩ | ⟨u', s₂, tr₃, tr₄, hdelete, hrest', rfl⟩ := Prog.trace_run_bind_iff.1 hrest
  . rcases trace_deleteUserAccount hdelete with ⟨-, hsheds⟩ | ⟨herr, -⟩
    . exact .inl ⟨⟨err, rfl⟩, hsheds⟩
    . contradiction
  rcases trace_deleteUserAccount hdelete with ⟨⟨_, herr⟩, -⟩ | ⟨-, hsheds⟩
  . contradiction
  obtain ⟨u'', s₃, tr₅, tr₆, hclose, hdone, rfl⟩ := Prog.trace_run_lift_bind_iff.1 hrest'
  have hkept : s₃.app.accounts = s₂.app.accounts := KeepsTables.disconnectUserSessions _ _ _ _ _ _ hclose
  obtain ⟨-, rfl, rfl⟩ := Prog.trace_run_pure_iff.1 hdone
  exact .inr ⟨⟨_, rfl⟩, hadmin, hkept ▸ hsheds⟩

end Deletions

section Renaming

variable {s s' : AccountState} {tr : List (AccountEnv × AccountLabel)} {x : Externals} {userId name : String}

def AccountLabel.isRenamed : AccountLabel → Bool
  | .renamed .. => true
  | _ => false

/--
The statement fails that follows a write of a name.
-/
def FailsAfterRenaming (tr : List (AccountEnv × AccountLabel)) : Prop :=
  ∃ y z, [y, z] <:+: tr ∧ y.2.isRenamed = true ∧ z.1.dbFails = true

/--
What a change of a name does: nothing, or a write that is confirmed unless the next statement fails.
-/
def Renames (userId : String) (s : AccountState) (tr : List (AccountEnv × AccountLabel)) (r : ApiResult α)
    (s' : AccountState) : Prop :=
  s'.rows = s.rows
    ∨ Rewrites userId s.app.accounts s'.app.accounts ∧ ((∃ a, r = .ok a) ∨ FailsAfterRenaming tr)

theorem Renames.after_rows {s₁ : AccountState} {tr₁ : List (AccountEnv × AccountLabel)} {r : ApiResult α}
    (hrows : s₁.app.accounts = s.app.accounts) (h : Renames userId s₁ tr r s') : Renames userId s (tr₁ ++ tr) r s' := by
  rcases h with hsame | ⟨hrewrites, hok | ⟨y, z, hwithin, hy, hz⟩⟩
  . refine .inl (hsame.trans ?_)
    rw [AccountState.rows, hrows]
    rfl
  . exact .inr ⟨hrows ▸ hrewrites, .inl hok⟩
  . exact .inr ⟨hrows ▸ hrewrites, .inr ⟨y, z, hwithin.trans (List.suffix_append tr₁ tr).isInfix, hy, hz⟩⟩

theorem trace_confirmRenamed {changes : List Nat} {r : ApiResult PublicUser}
    (hrow : ∃ user, s.app.accounts.users.lookup userId = some user ∧ user.id = userId)
    (h : Prog.Trace (do
      updateUsername userId name changes
      let some updated ← findUserById userId
        | throw (.badRequest "Account not found.")
      return updated.publicUser : Api PublicUser).run s tr r s')
    : Renames userId s tr r s' := by
  obtain ⟨err, rfl, hwrite⟩ | ⟨u, s₁, tr₁, tr₂, hwrite, hrest, rfl⟩ := Prog.trace_run_bind_iff.1 h
  . obtain ⟨e, ⟨-, -, -, rfl⟩ | ⟨-, -, herr, rfl⟩⟩ := trace_statement hwrite
    . exact .inl rfl
    . split at herr
      next htaken =>
        rw [if_pos htaken]
        exact .inl rfl
      next => contradiction
  obtain ⟨e, ⟨-, -, herr, -⟩ | ⟨-, rfl, hok, rfl⟩⟩ := trace_statement hwrite
  . contradiction
  split at hok
  . contradiction
  next hfree =>
    rw [if_neg hfree] at hrest ⊢
    dsimp only at hrest ⊢
    clear h hwrite hok
    have hrewrites : Rewrites userId s.app.accounts
        ((AccountLabel.renamed userId name changes).apply s).app.accounts :=
      .of_modify (f := fun user => { user with username := name }) (fun _ => rfl) (fun _ => rfl) rfl rfl
    obtain ⟨user, huser, hid⟩ := hrow
    have hlookup : ((AccountLabel.renamed userId name changes).apply s).app.accounts.users.lookup userId
        = some { user with username := name } := by
      refine (AssocMap.lookup_modify_self userId (fun user : StoredUser => { user with username := name }) _).trans ?_
      rw [huser]
      rfl
    obtain ⟨err, rfl, hfind⟩ | ⟨found, s₂, tr₃, tr₄, hfind, hrest', rfl⟩ := Prog.trace_run_bind_iff.1 hrest
    . obtain ⟨rfl, e', rfl, ⟨hfails, -⟩ | hfound⟩ := trace_findUserById hfind
      . exact .inr ⟨hrewrites, .inr ⟨_, _, List.infix_rfl, rfl, hfails⟩⟩
      . contradiction
    . obtain ⟨rfl, e', rfl, ⟨-, herr⟩ | hfound⟩ := trace_findUserById hfind
      . contradiction
      obtain rfl := Except.ok.inj hfound
      rw [hlookup] at hrest'
      simp only [Option.filter, hid, decide_true] at hrest'
      obtain ⟨-, rfl, rfl⟩ := Prog.trace_run_pure_iff.1 hrest'
      exact .inr ⟨hrewrites, .inl ⟨_, rfl⟩⟩

theorem trace_changeUsername {r : ApiResult PublicUser}
    (h : Prog.Trace (AccountDatabase.changeUsername x userId name).run s tr r s') : Renames userId s tr r s' := by
  unfold AccountDatabase.changeUsername at h
  obtain ⟨err, -, hvalid⟩ | ⟨username, s₁, tr₁, tr₂, hvalid, hrest₁, rfl⟩ := Prog.trace_run_bind_iff.1 h
  . obtain ⟨-, -, rfl⟩ := Prog.trace_done_iff.1 hvalid
    exact .inl rfl
  obtain ⟨rfl, -, rfl⟩ := Prog.trace_done_iff.1 hvalid
  refine .after_rows rfl ?_
  clear h hvalid
  obtain ⟨err, -, hfind⟩ | ⟨account, s₂, tr₃, tr₄, hfind, hrest₂, rfl⟩ := Prog.trace_run_bind_iff.1 hrest₁
  . obtain ⟨rfl, -⟩ := trace_findUserById hfind
    exact .inl rfl
  obtain ⟨rfl, e, -, ⟨-, herr⟩ | hfound⟩ := trace_findUserById hfind
  . contradiction
  obtain rfl := Except.ok.inj hfound
  refine .after_rows rfl ?_
  clear hrest₁ hfind
  split at hrest₂
  next account haccount =>
    obtain ⟨user, huser, rfl⟩ := Option.map_eq_some_iff.1 haccount
    obtain ⟨huser, hid⟩ := Option.filter_eq_some_iff.1 huser
    have hrow : ∃ user, s₂.app.accounts.users.lookup userId = some user ∧ user.id = userId :=
      ⟨user, huser, of_decide_eq_true hid⟩
    split at hrest₂
    . obtain ⟨-, -, rfl⟩ := Prog.trace_done_iff.1 hrest₂
      exact .inl rfl
    obtain ⟨now, s₃, tr₅, tr₆, hnow, hrest₃, rfl⟩ := Prog.trace_run_lift_bind_iff.1 hrest₂
    obtain ⟨e', -, -, rfl⟩ := trace_perform hnow
    refine .after_rows rfl ?_
    clear hrest₂ hnow
    dsimp only at hrest₃
    split at hrest₃
    . obtain ⟨-, -, rfl⟩ := Prog.trace_done_iff.1 hrest₃
      exact .inl rfl
    obtain ⟨err, -, hfind⟩ | ⟨existing, s₄, tr₇, tr₈, hfind, hrest₄, rfl⟩ := Prog.trace_run_bind_iff.1 hrest₃
    . obtain ⟨rfl, -⟩ := trace_findUserByUsername hfind
      exact .inl rfl
    obtain ⟨rfl, -⟩ := trace_findUserByUsername hfind
    refine .after_rows rfl ?_
    split at hrest₄
    . obtain ⟨-, -, rfl⟩ := Prog.trace_done_iff.1 hrest₄
      exact .inl rfl
    . exact trace_confirmRenamed hrow hrest₄
  next =>
    obtain ⟨-, -, rfl⟩ := Prog.trace_done_iff.1 hrest₂
    exact .inl rfl

theorem trace_authChangeUsername {user : AuthenticatedUser} {r : ApiResult AccountReply}
    (h : Prog.Trace (Auth.changeUsername x user name).run s tr r s')
    : s'.rows = s.rows
        ∨ Rewrites user.id s.app.accounts s'.app.accounts
          ∧ ((∃ updated, r = .ok (.user updated)) ∨ FailsAfterRenaming tr) := by
  unfold Auth.changeUsername at h
  split at h
  . obtain ⟨-, -, rfl⟩ := Prog.trace_done_iff.1 h
    exact .inl rfl
  obtain ⟨err, rfl, hchange⟩ | ⟨updated, s₁, tr₁, tr₂, hchange, hrest, rfl⟩ := Prog.trace_run_bind_iff.1 h
  . rcases trace_changeUsername hchange with hrows | ⟨hrewrites, ⟨_, herr⟩ | hfails⟩
    . exact .inl hrows
    . contradiction
    . exact .inr ⟨hrewrites, .inr hfails⟩
  have hrest' : s'.app.accounts = s₁.app.accounts ∧ r = .ok (.user updated) := by
    clear h hchange
    obtain ⟨rooms, s₂, tr₃, tr₄, hshare, hannounce, rfl⟩ := Prog.trace_run_lift_bind_iff.1 hrest
    obtain ⟨e, -, -, rfl⟩ := trace_perform hshare
    obtain ⟨u, s₃, tr₅, tr₆, hannounced, hdone, rfl⟩ := Prog.trace_run_lift_bind_iff.1 hannounce
    obtain ⟨-, rfl, rfl⟩ := Prog.trace_run_pure_iff.1 hdone
    have hkept := KeepsTables.announceRenamedAll _ _ _ _ _ hannounced
    exact ⟨hkept, rfl⟩
  obtain ⟨haccounts, rfl⟩ := hrest'
  rcases trace_changeUsername hchange with hrows | ⟨hrewrites, -⟩
  . refine .inl (Eq.trans ?_ hrows)
    rw [AccountState.rows, haccounts]
    rfl
  . exact .inr ⟨haccounts ▸ hrewrites, .inl ⟨updated, rfl⟩⟩

end Renaming

section Sessions

variable {s s' : AppState} {tr : List (Env × Label)} {sid userId : String} {d : Json}

theorem trace_rewritesProfile {profile : UserProfile} {written : Bool}
    (h : Prog.Trace (updateProfile userId profile) s tr written s') : Rewrites userId s.accounts s'.accounts := by
  obtain ⟨e, -, -, -, haccounts⟩ := trace_updateProfile h
  rw [haccounts]
  split
  . exact .of_modify (f := fun user => { user with profile }) (fun _ => rfl) (fun _ => rfl) rfl rfl
  . exact .refl _ _

theorem trace_rewritesStatus {status : UserPresenceStatus} {written : Bool}
    (h : Prog.Trace (updateStatus userId status) s tr written s')
    : Rewrites userId s.accounts s'.accounts
        ∧ s'.accounts.publicProfile? userId = s.accounts.publicProfile? userId := by
  obtain ⟨e, -, -, rfl⟩ := Prog.trace_atom_iff.1 h
  split
  . exact ⟨.refl _ _, rfl⟩
  . refine ⟨.of_modify (f := fun user => { user with status }) (fun _ => rfl) (fun _ => rfl) rfl rfl, ?_⟩
    refine AccountDatabase.publicProfile?_modify (f := fun user => { user with status }) rfl rfl fun _ => ?_
    exact ⟨rfl, rfl, rfl, rfl, rfl⟩

theorem trace_rewritesComplete {profile : Option UserProfile} {status : Option UserPresenceStatus}
    {old player : PlayerSession} {b : Bool} (h : Prog.Trace (completeSettings sid d profile status old player) s tr b s')
    : Rewrites player.userId s.accounts s'.accounts
        ∧ (profile = none → s'.accounts.publicProfile? player.userId = s.accounts.publicProfile? player.userId) := by
  obtain ⟨u, s₁, tr₁, tr₂, hprofile, hrest, rfl⟩ := Prog.trace_bind_iff.1 h
  obtain ⟨u', s₂, tr₃, tr₄, hstatus, hrest', rfl⟩ := Prog.trace_bind_iff.1 hrest
  have hfirst : Rewrites player.userId s.accounts s₁.accounts ∧ (profile = none → s₁.accounts = s.accounts) := by
    unfold persistProfile at hprofile
    split at hprofile
    next hsome =>
      obtain ⟨written, s₃, tr₅, tr₆, hwrite, hdone, rfl⟩ := Prog.trace_bind_iff.1 hprofile
      obtain ⟨-, -, rfl⟩ := Prog.trace_done_iff.1 hdone
      exact ⟨trace_rewritesProfile hwrite, fun hnone => by simp [hnone] at hsome⟩
    next =>
      obtain ⟨-, -, rfl⟩ := Prog.trace_done_iff.1 hprofile
      exact ⟨.refl _ _, fun _ => rfl⟩
  have hsecond : Rewrites player.userId s₁.accounts s₂.accounts
      ∧ s₂.accounts.publicProfile? player.userId = s₁.accounts.publicProfile? player.userId := by
    unfold persistStatus at hstatus
    split at hstatus
    . obtain ⟨written, s₃, tr₅, tr₆, hwrite, hdone, rfl⟩ := Prog.trace_bind_iff.1 hstatus
      obtain ⟨-, -, rfl⟩ := Prog.trace_done_iff.1 hdone
      exact trace_rewritesStatus hwrite
    . obtain ⟨-, -, rfl⟩ := Prog.trace_done_iff.1 hstatus
      exact ⟨.refl _ _, rfl⟩
  have htail : s'.accounts = s₂.accounts := by
    refine KeepsAccounts.of_aside ?_ _ _ _ _ hrest'
    exact .bind (.respondOk _ _ _ _) fun _ => .bind (.announceProfileAll _ _) fun _ =>
      .bind (.announceStatusAll _ _ _) fun _ => .bind (.announceSyncPeer _ _ _) fun _ => .pure _
  rw [htail]
  exact ⟨hfirst.1.trans hsecond.1, fun hnone => hsecond.2.trans (by rw [hfirst.2 hnone])⟩

theorem trace_rewritesSettings {b : Bool} (h : Prog.Trace (updateClientSettings sid d) s tr b s')
    : s'.accounts = s.accounts ∨ ∃ player, s.players.lookup sid = some player
        ∧ Rewrites player.userId s.accounts s'.accounts
        ∧ (d.get? "profile" = none →
          s'.accounts.publicProfile? player.userId = s.accounts.publicProfile? player.userId) := by
  obtain ⟨limited, s₁, tr₁, tr₂, hlimit, hrest, rfl⟩ := Prog.trace_bind_iff.1 h
  obtain ⟨e₁, -, -, rfl⟩ := trace_hitRateLimit hlimit
  clear h hlimit
  split at hrest
  . obtain ⟨e, -, rfl⟩ := trace_respondError hrest
    exact .inl rfl
  obtain ⟨current, s₂, tr₃, tr₄, hread, hrest₁, rfl⟩ := Prog.trace_bind_iff.1 hrest
  obtain ⟨e₂, -, -, rfl⟩ := trace_look hread
  obtain ⟨result, s₃, tr₅, tr₆, hparse, hrest₂, rfl⟩ := Prog.trace_bind_iff.1 hrest₁
  obtain ⟨haccounts, hplayers⟩ : s₃.accounts = s.accounts ∧ s₃.players = s.players := by
    have haccounts := KeepsAccounts.parseUserProfile _ _ _ _ _ _ hparse
    have hplayers := KeepsPlayers.parseUserProfile _ _ _ _ _ _ hparse
    exact ⟨haccounts, hplayers⟩
  clear hrest hread hrest₁ hparse
  split at hrest₂
  . obtain ⟨e, -, rfl⟩ := trace_respondError hrest₂
    exact .inl haccounts
  obtain ⟨outcome, s₄, tr₇, tr₈, hchange, hrest₃, rfl⟩ := Prog.trace_bind_iff.1 hrest₂
  obtain ⟨e₃, -, rfl, rfl⟩ := Prog.trace_atom_iff.1 hchange
  clear hrest₂ hchange
  cases hplayer : s₃.players.lookup sid with
  | none =>
    simp only [hplayer] at hrest₃
    obtain ⟨e, -, rfl⟩ := trace_respondError hrest₃
    exact .inl haccounts
  | some player =>
    simp only [hplayer] at hrest₃
    obtain ⟨hrewrites, hsame⟩ := trace_rewritesComplete hrest₃
    rw [applySettings_userId] at hrewrites hsame
    rw [← haccounts]
    refine .inr ⟨player, hplayers ▸ hplayer, hrewrites, fun hnone => hsame ?_⟩
    rw [hnone]
    rfl

theorem trace_rewritesUpload {user : AuthenticatedUser} {kind : String} {file : UploadedFile} {answer : Except String Json}
    (h : Prog.Trace (Http.uploadProfileImage user kind file) s tr answer s')
    : s'.accounts = s.accounts ∨ (∃ json, answer = .ok json) ∧ Rewrites user.id s.accounts s'.accounts := by
  rcases trace_uploadProfileImage h with ⟨-, hsame, -⟩ | ⟨kind, image, -, hshares⟩
  . exact .inl hsame.accounts
  . rcases hshares.outcome with ⟨-, haccounts⟩ | ⟨hok, haccounts⟩
    . exact .inl haccounts
    . refine .inr ⟨hok, ?_⟩
      rw [haccounts]
      exact .of_modify (f := fun user => { user with profile := (s.copyUsed tr _).withImage kind image })
        (fun _ => rfl) (fun _ => rfl) rfl rfl

end Sessions

end Lqxp

namespace Lqxp

open AccountDatabase (Sheds Rewrites)

section Pieces

variable {s s' : ProfileState} {tr : List (AccountEnv × ProfileLabel)}

theorem trace_onAccounts {p : Accounts α} {a : α} (h : Prog.Trace (onAccounts p) s tr a s')
    : ∃ tr₀, Prog.Trace p s.account tr₀ a s'.account ∧ s'.publicProfileCache = s.publicProfileCache
        ∧ tr = tr₀.map fun x => (x.1, .account x.2) := by
  obtain ⟨tr₀, hrun, hsame⟩ := Prog.Trace.of_zoom h
  have hcache : s'.publicProfileCache = s.publicProfileCache :=
    Prog.Preserves.beside (w := ProfileState.publicProfileCache) (fun _ _ => rfl) p _ _ _ _ h
  refine ⟨tr₀, hrun, hcache, ?_⟩
  clear hrun h hcache
  induction hsame with
  | nil => rfl
  | @cons x y tr tr₀ hxy hrest ih =>
    obtain ⟨henv, t, hlabel⟩ := hxy
    rw [List.map_cons, ← ih]
    exact congrArg (· :: tr) (Prod.ext henv.symm hlabel)

theorem trace_onApi {p : Api α} {r : ApiResult α} (h : Prog.Trace (onApi p).run s tr r s')
    : ∃ tr₀, Prog.Trace p.run s.account tr₀ r s'.account ∧ s'.publicProfileCache = s.publicProfileCache
        ∧ tr = tr₀.map fun x => (x.1, .account x.2) := trace_onAccounts h

theorem trace_onSession {sid : Option String} {p : Proto α} {a : α} (h : Prog.Trace (onSession sid p) s tr a s')
    : ∃ tr₀, Prog.Trace p s.account.app tr₀ a s'.account.app ∧ s'.publicProfileCache = s.publicProfileCache
        ∧ List.Forall₂ (fun x y => ∃ sender, x.2 = .account (.handled sid sender y.2)) tr tr₀ := by
  obtain ⟨tr₁, hrun, hcache, rfl⟩ := trace_onAccounts h
  obtain ⟨tr₀, hrun₀, hsame⟩ := Prog.Trace.of_zoom hrun
  refine ⟨tr₀, hrun₀, hcache, ?_⟩
  clear hrun h hcache hrun₀
  induction hsame with
  | nil => exact .nil
  | cons hxy hrest ih =>
    obtain ⟨-, t, hlabel⟩ := hxy
    exact .cons ⟨_, congrArg ProfileLabel.account hlabel⟩ ih

/--
The accounts and the cache are as before.
-/
structure SameShown (s s' : ProfileState) : Prop where
  accounts : s'.accounts = s.accounts
  cache : s'.publicProfileCache = s.publicProfileCache

theorem SameShown.refl (s : ProfileState) : SameShown s s := ⟨rfl, rfl⟩

theorem SameShown.trans {s'' : ProfileState} (h : SameShown s s') (h' : SameShown s' s'') : SameShown s s'' :=
  ⟨h'.accounts.trans h.accounts, h'.cache.trans h.cache⟩

theorem sameShown_onSession {sid : Option String} {p : Proto α} {a : α} (hp : KeepsAccounts p)
    (h : Prog.Trace (onSession sid p) s tr a s') : SameShown s s' := by
  obtain ⟨tr₀, hrun, hcache, -⟩ := trace_onSession h
  exact ⟨hp _ _ _ _ hrun, hcache⟩

/--
Entries are dropped: those under the id and those under the name.
-/
structure Drops (userId username : Option String) (s s' : ProfileState) : Prop where
  account : s'.account = s.account
  kept (key : String) (c : CachedPublicProfile)
    : s'.publicProfileCache.lookup key = some c → s.publicProfileCache.lookup key = some c
  id (id : String) : userId = some id → s'.publicProfileCache.lookup ("id:" ++ Text.trim id) = none
  name (name : String) : username = some name →
    s'.publicProfileCache.lookup ("username:" ++ Text.toAsciiLower (Text.trim name)) = none

theorem trace_invalidate {userId username : Option String} {u : Unit}
    (h : Prog.Trace (invalidatePublicProfileCache userId username) s tr u s') : Drops userId username s s' := by
  obtain ⟨e, -, -, rfl⟩ := Prog.trace_atom_iff.1 h
  refine ⟨rfl, fun key c hc => ?_, fun id hid => ?_, fun name hname => ?_⟩
  . exact (Option.filter_eq_some_iff.1 ((AssocMap.lookup_retain _ _ _).symm.trans hc)).1
  . refine (AssocMap.lookup_retain _ _ _).trans (Option.filter_eq_none_iff.2 fun c _ => ?_)
    simp [hid]
  . refine (AssocMap.lookup_retain _ _ _).trans (Option.filter_eq_none_iff.2 fun c _ => ?_)
    simp [hname]

end Pieces

section Routes

variable {s s' : ProfileState} {tr : List (AccountEnv × ProfileLabel)} {token : String}

theorem trace_route {f : AuthenticatedUser → ProfileApi α} {r : ApiResult α}
    (h : Prog.Trace (authenticatedUser token >>= f).run s tr r s')
    : SameShown s s' ∨ ∃ row s₁ tr₁ tr₂, s.accounts.tokenUser? token = some row ∧ SameShown s s₁
        ∧ Prog.Trace (f (s.accounts.authenticatedUser row)).run s₁ tr₂ r s' ∧ tr = tr₁ ++ tr₂ := by
  obtain ⟨err, -, hauth⟩ | ⟨user, s₁, tr₁, tr₂, hauth, hrest, rfl⟩ := Prog.trace_run_bind_iff.1 h
  . obtain ⟨err', -, hfound⟩ | ⟨found, s₂, tr₃, tr₄, hfound, hdone, rfl⟩ := Prog.trace_run_bind_iff.1 hauth
    . obtain ⟨tr₀, hrun, hcache, -⟩ := trace_onApi hfound
      exact .inl ⟨congrArg AppState.accounts (trace_authenticate hrun).1, hcache⟩
    . obtain ⟨tr₀, hrun, hcache, -⟩ := trace_onApi hfound
      have hsame : SameShown s s₂ := ⟨congrArg AppState.accounts (trace_authenticate hrun).1, hcache⟩
      split at hdone
      . obtain ⟨-, -, rfl⟩ := Prog.trace_done_iff.1 hdone
        exact .inl hsame
      . obtain ⟨-, -, rfl⟩ := Prog.trace_done_iff.1 hdone
        exact .inl hsame
  . obtain ⟨err', herr, -⟩ | ⟨found, s₂, tr₃, tr₄, hfound, hdone, rfl⟩ := Prog.trace_run_bind_iff.1 hauth
    . contradiction
    obtain ⟨tr₀, hrun, hcache, -⟩ := trace_onApi hfound
    obtain ⟨happ, hrow⟩ := trace_authenticate hrun
    have hsame : SameShown s s₂ := ⟨congrArg AppState.accounts happ, hcache⟩
    split at hdone
    . obtain ⟨-, heq, rfl⟩ := Prog.trace_done_iff.1 hdone
      obtain rfl := Except.ok.inj heq
      obtain ⟨row, htoken, rfl⟩ := hrow user rfl
      exact .inr ⟨row, s₁, _, tr₂, htoken, hsame, hrest, rfl⟩
    . obtain ⟨-, herr, -⟩ := Prog.trace_done_iff.1 hdone
      contradiction

theorem trace_limited {key text : String} {limit windowMs : Nat} {f : Unit → ProfileApi α} {r : ApiResult α}
    (h : Prog.Trace (routeRateLimit key limit windowMs text >>= f).run s tr r s')
    : SameShown s s' ∨ ∃ s₁ tr₁ tr₂, SameShown s s₁ ∧ Prog.Trace (f ()).run s₁ tr₂ r s' ∧ tr = tr₁ ++ tr₂ := by
  have hlimit {r : ApiResult Unit} {s₁ : ProfileState} {tr₁ : List (AccountEnv × ProfileLabel)}
      (h : Prog.Trace (routeRateLimit key limit windowMs text).run s tr₁ r s₁) : SameShown s s₁ := by
    obtain ⟨hit, s₂, tr₂, tr₃, hhit, hdone, rfl⟩ := Prog.trace_run_lift_bind_iff.1 h
    have hsame := sameShown_onSession (.of_aside (.hitRateLimit _ _ _)) hhit
    split at hdone
    . obtain ⟨-, -, rfl⟩ := Prog.trace_done_iff.1 hdone
      exact hsame
    . obtain ⟨-, -, rfl⟩ := Prog.trace_done_iff.1 hdone
      exact hsame
  obtain ⟨err, -, hfails⟩ | ⟨u, s₁, tr₁, tr₂, hfirst, hrest, rfl⟩ := Prog.trace_run_bind_iff.1 h
  . exact .inl (hlimit hfails)
  . exact .inr ⟨s₁, tr₁, tr₂, hlimit hfirst, hrest, rfl⟩

end Routes

section Moves

variable {live : CachedPublicProfile → Prop} {s s' s'' : ProfileState} {userId : String} {userIds : List String}

/--
No entry under the keys of a profile is live.
-/
def PublicProfile.Uncached (shown : PublicProfile) (live : CachedPublicProfile → Prop) (s : ProfileState) : Prop :=
  ∀ key ∈ shown.cacheKeys, ∀ c, s.publicProfileCache.lookup key = some c → ¬ live c

theorem PublicProfile.Uncached.of_kept {shown : PublicProfile} (h : shown.Uncached live s)
    (hkept : ∀ key c, s'.publicProfileCache.lookup key = some c → s.publicProfileCache.lookup key = some c)
    : shown.Uncached live s' :=
  fun key hkey c hc => h key hkey c (hkept key c hc)

/--
What a request does to the rows and to the cache keeps the rows under their ids and the cache coherent.
-/
structure KeepsCoherent (live : CachedPublicProfile → Prop) (s s' : ProfileState) : Prop where
  keyed : s.accounts.Keyed → s'.accounts.Keyed
  moves : ReadThrough.Moves PublicProfile.cacheKeys live s.accounts.publicProfile? s.publicProfileCache
    s'.accounts.publicProfile? s'.publicProfileCache

namespace KeepsCoherent

theorem trans (h : KeepsCoherent live s s') (h' : KeepsCoherent live s' s'') : KeepsCoherent live s s'' where
  keyed := h'.keyed ∘ h.keyed
  moves := h.moves.trans h'.moves

theorem of_same (h : SameShown s s') : KeepsCoherent live s s' where
  keyed := by
    rw [h.accounts]
    exact id
  moves := by
    rw [h.accounts, h.cache]
    exact .refl

theorem of_rewrites (h : Rewrites userId s.accounts s'.accounts)
    (hkept : ∀ key c, s'.publicProfileCache.lookup key = some c → s.publicProfileCache.lookup key = some c)
    (hshown : s'.accounts.publicProfile? userId = s.accounts.publicProfile? userId
      ∨ ∀ shown, s.accounts.publicProfile? userId = some shown → shown.Uncached live s')
    : KeepsCoherent live s s' where
  keyed := h.keyed
  moves := by
    refine ⟨hkept, fun id shown hid => ?_⟩
    by_cases heq : id = userId
    . subst heq
      rcases hshown with hsame | hdead
      . exact .inl (hsame.trans hid)
      . exact .inr (hdead shown hid)
    . exact .inl ((h.publicProfile? heq).trans hid)

theorem of_sheds {userIds' : List String} (h : Sheds userIds s.accounts s'.accounts) (hsub : userIds ⊆ userIds')
    (hkept : ∀ key c, s'.publicProfileCache.lookup key = some c → s.publicProfileCache.lookup key = some c)
    (hdeleted : ∀ id ∈ userIds, ∀ shown, s.accounts.publicProfile? id = some shown → shown.Uncached live s')
    (hbadges : ∀ id user, s.accounts.users.lookup id = some user →
      (s.accounts.without userIds').userBadges user = s.accounts.userBadges user
        ∨ (s.accounts.authenticatedUser user).publicProfile.Uncached live s)
    : KeepsCoherent live s s' where
  keyed := h.keyed
  moves := by
    refine ⟨hkept, fun id shown hid => ?_⟩
    by_cases hmem : id ∈ userIds
    . exact .inr (hdeleted id hmem shown hid)
    . obtain ⟨user, huser, rfl⟩ := Option.map_eq_some_iff.1 hid
      rcases hbadges id user huser with hsame | hdead
      . refine .inl ((AccountDatabase.publicProfile?_congr ?_ fun user' huser' => ?_).trans hid)
        . rw [h.lookup, if_neg hmem]
        . obtain rfl := Option.some.inj (huser.symm.trans huser')
          exact h.userBadges hsub hsame
      . exact .inr (hdead.of_kept hkept)

end KeepsCoherent

end Moves

end Lqxp
