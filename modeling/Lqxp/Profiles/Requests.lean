import Lqxp.Profiles.Effects

/-!
This module contains when the services that change public profiles keep the cache coherent.
-/

namespace Lqxp

open AccountDatabase (Sheds Rewrites)

variable {live : CachedPublicProfile → Prop} {s s' s'' : ProfileState} {tr : List (AccountEnv × ProfileLabel)}
  {x : Externals}

theorem AccountDatabase.lookup_tokenUser {db : AccountDatabase} {token : String} {row : StoredUser}
    (h : db.tokenUser? token = some row) (hkeyed : db.Keyed) : db.users.lookup row.id = some row := by
  obtain ⟨hrow, -⟩ := Option.filter_eq_some_iff.1 h
  obtain ⟨session, -, huser⟩ := Option.bind_eq_some_iff.1 hrow
  rwa [hkeyed _ row huser]

theorem AccountDatabase.publicProfile?_of_lookup {db : AccountDatabase} {row : StoredUser}
    (h : db.users.lookup row.id = some row)
    : db.publicProfile? row.id = some (db.authenticatedUser row).publicProfile := by
  rw [publicProfile?, h]
  rfl

theorem PublicProfile.uncached_of_drops {shown : PublicProfile}
    (h : Drops (some shown.userId) (some shown.username) s s') : shown.Uncached live s' := by
  intro key hkey c hc
  rcases List.mem_cons.1 hkey with rfl | hkey
  . exact nomatch (h.id shown.userId rfl).symm.trans hc
  . obtain rfl := List.mem_singleton.1 hkey
    exact nomatch (h.name shown.username rfl).symm.trans hc

section Confirmations

def ProfileLabel.isWrite : ProfileLabel → Bool
  | .account label => label.isRenamed
  | .badged .. => true
  | .quiet => false

/--
The statement fails that follows a write of a name or of badges.
-/
def FailsAfterWrite (tr : List (AccountEnv × ProfileLabel)) : Prop :=
  ∃ y z, [y, z] <:+: tr ∧ y.2.isWrite = true ∧ z.1.dbFails = true

theorem FailsAfterWrite.of_within {tr' : List (AccountEnv × ProfileLabel)} (h : FailsAfterWrite tr) (hwithin : tr <:+: tr')
    : FailsAfterWrite tr' := by
  obtain ⟨y, z, hyz, hy, hz⟩ := h
  exact ⟨y, z, hyz.trans hwithin, hy, hz⟩

theorem FailsAfterWrite.of_renaming {tr₀ : List (AccountEnv × AccountLabel)} (h : FailsAfterRenaming tr₀)
    : FailsAfterWrite (tr₀.map fun x => (x.1, .account x.2)) := by
  obtain ⟨y, z, hyz, hy, hz⟩ := h
  have hmap := hyz.map fun x : AccountEnv × AccountLabel => (x.1, ProfileLabel.account x.2)
  exact ⟨(y.1, .account y.2), (z.1, .account z.2), hmap, hy, hz⟩

end Confirmations

namespace KeepsCoherent

theorem of_rows (hrows : s'.account.rows = s.account.rows)
    (hkept : ∀ key c, s'.publicProfileCache.lookup key = some c → s.publicProfileCache.lookup key = some c)
    : KeepsCoherent live s s' := by
  have husers : s'.accounts.users = s.accounts.users := congrArg Prod.fst hrows
  have hadmins : s'.accounts.adminIds = s.accounts.adminIds := congrArg Prod.snd hrows
  refine ⟨fun hkeyed => ?_, hkept, fun id shown hid => .inl ?_⟩
  . rw [AccountDatabase.Keyed, husers]
    exact hkeyed
  . rw [AccountDatabase.publicProfile?_of_rows husers hadmins]
    exact hid

theorem of_drops {userId username : Option String} (h : Drops userId username s s') : KeepsCoherent live s s' :=
  .of_rows (congrArg AccountState.rows h.account) h.kept

section Writes

variable {row : StoredUser}

theorem of_invalidated (hrow : s.accounts.users.lookup row.id = some row) (h : Rewrites row.id s.accounts s'.accounts)
    (hcache : s'.publicProfileCache = s.publicProfileCache) (hdrops : Drops (some row.id) (some row.username) s' s'')
    : KeepsCoherent live s s'' := by
  have haccounts : s''.accounts = s'.accounts := congrArg (·.app.accounts) hdrops.account
  refine .of_rewrites (haccounts ▸ h) (fun key c hc => hcache ▸ hdrops.kept key c hc) (.inr fun shown hshown => ?_)
  obtain rfl := Option.some.inj ((AccountDatabase.publicProfile?_of_lookup hrow).symm.trans hshown)
  exact PublicProfile.uncached_of_drops hdrops

theorem uploadProfileImage {kind : String} {file : UploadedFile} {answer : Except String Json}
    (hrow : s.accounts.users.lookup row.id = some row)
    (h : Prog.Trace (Cached.uploadProfileImage (s.accounts.authenticatedUser row) kind file) s tr answer s')
    : KeepsCoherent live s s' := by
  obtain ⟨answer', s₁, tr₁, tr₂, hupload, hrest, rfl⟩ := Prog.trace_bind_iff.1 h
  obtain ⟨tr₀, hrun, hcache, -⟩ := trace_onSession hupload
  rcases trace_rewritesUpload hrun with haccounts | ⟨⟨json, rfl⟩, hrewrites⟩
  . have hsame : SameShown s s₁ := ⟨haccounts, hcache⟩
    split at hrest
    . obtain ⟨u, s₂, tr₃, tr₄, hinvalidate, hdone, rfl⟩ := Prog.trace_bind_iff.1 hrest
      obtain ⟨-, -, rfl⟩ := Prog.trace_done_iff.1 hdone
      exact .trans (.of_same hsame) (.of_drops (trace_invalidate hinvalidate))
    . obtain ⟨-, -, rfl⟩ := Prog.trace_done_iff.1 hrest
      exact .of_same hsame
  . obtain ⟨u, s₂, tr₃, tr₄, hinvalidate, hdone, rfl⟩ := Prog.trace_bind_iff.1 hrest
    obtain ⟨-, -, rfl⟩ := Prog.trace_done_iff.1 hdone
    exact of_invalidated hrow hrewrites hcache (trace_invalidate hinvalidate)

theorem changeUsername {name : String} {r : ApiResult AccountReply}
    (hrow : s.accounts.users.lookup row.id = some row)
    (h : Prog.Trace (Cached.changeUsername x (s.accounts.authenticatedUser row) name).run s tr r s')
    (hconfirmed : ¬ FailsAfterWrite tr) : KeepsCoherent live s s' := by
  obtain ⟨err, -, hchange⟩ | ⟨reply, s₁, tr₁, tr₂, hchange, hrest, rfl⟩ := Prog.trace_run_bind_iff.1 h
  . obtain ⟨tr₀, hrun, hcache, rfl⟩ := trace_onApi hchange
    rcases trace_authChangeUsername hrun with hrows | ⟨-, ⟨_, herr⟩ | hfails⟩
    . exact .of_rows hrows fun key c hc => hcache ▸ hc
    . contradiction
    . exact absurd (.of_renaming hfails) hconfirmed
  obtain ⟨tr₀, hrun, hcache, rfl⟩ := trace_onApi hchange
  clear h hchange
  have hend : (∀ updated, reply ≠ .user updated) ∧ s' = s₁
      ∨ ∃ s₂, Drops (some row.id) (some row.username) s₁ s₂ ∧ KeepsCoherent live s₂ s' := by
    split at hrest
    next updated =>
      obtain ⟨u, s₂, tr₃, tr₄, hold, hrest', rfl⟩ := Prog.trace_run_lift_bind_iff.1 hrest
      obtain ⟨u', s₃, tr₅, tr₆, hnew, hdone, rfl⟩ := Prog.trace_run_lift_bind_iff.1 hrest'
      obtain ⟨-, -, rfl⟩ := Prog.trace_run_pure_iff.1 hdone
      exact .inr ⟨s₂, trace_invalidate hold, .of_drops (trace_invalidate hnew)⟩
    next reply hreply =>
      obtain ⟨-, -, rfl⟩ := Prog.trace_done_iff.1 hrest
      exact .inl ⟨hreply, rfl⟩
  rcases trace_authChangeUsername hrun with hrows | ⟨hrewrites, ⟨updated, hok⟩ | hfails⟩
  . have hfirst : KeepsCoherent live s s₁ := .of_rows hrows fun key c hc => hcache ▸ hc
    rcases hend with ⟨-, rfl⟩ | ⟨s₂, hdrops, hlast⟩
    . exact hfirst
    . exact hfirst.trans (.trans (.of_drops hdrops) hlast)
  . rcases hend with ⟨hreply, -⟩ | ⟨s₂, hdrops, hlast⟩
    . exact absurd (Except.ok.inj hok) (hreply updated)
    . exact .trans (of_invalidated hrow hrewrites hcache hdrops) hlast
  . exact absurd ((FailsAfterWrite.of_renaming hfails).of_within (List.prefix_append _ _).isInfix) hconfirmed

theorem trace_setUserBadges {userId : String} {badges : List String} {r : ApiResult PublicUser}
    (hkeyed : s.accounts.Keyed) (h : Prog.Trace (AccountDatabase.setUserBadges x userId badges).run s tr r s')
    : s'.publicProfileCache = s.publicProfileCache
        ∧ (s'.account.rows = s.account.rows
          ∨ Rewrites userId s.accounts s'.accounts
            ∧ ((∃ row updated, s.accounts.users.lookup row.id = some row ∧ row.id = userId ∧ r = .ok updated
                ∧ updated.username = row.username) ∨ FailsAfterWrite tr)) := by
  obtain ⟨err, -, hwrite⟩ | ⟨u, s₁, tr₁, tr₂, hwrite, hrest, rfl⟩ := Prog.trace_run_bind_iff.1 h
  . obtain ⟨e, rfl, herr, rfl⟩ := Prog.trace_atom_iff.1 hwrite
    split at herr
    next hfails =>
      rw [if_pos hfails]
      exact ⟨rfl, .inl rfl⟩
    next => contradiction
  obtain ⟨e, rfl, hok, rfl⟩ := Prog.trace_atom_iff.1 hwrite
  split at hok
  . contradiction
  next hfails =>
    rw [if_neg hfails] at hrest ⊢
    clear h hwrite hok
    let f (user : StoredUser) : StoredUser := { user with customBadges := sanitizeCustomBadges x badges }
    have hrewrites : Rewrites userId s.accounts (s.account.updateUser userId f).app.accounts :=
      .of_modify (f := f) (fun _ => rfl) (fun _ => rfl) rfl rfl
    have hfound {s₂ : ProfileState} {tr : List (AccountEnv × ProfileLabel)} {r : ApiResult (Option StoredAccount)}
        (h : Prog.Trace (onApi (findUserById userId)).run { s with account := s.account.updateUser userId f } tr r s₂)
        : s₂.account = s.account.updateUser userId f ∧ s₂.publicProfileCache = s.publicProfileCache
          ∧ ∃ e' : AccountEnv, tr = [(e', .account .quiet)]
            ∧ (e'.dbFails = true ∧ r = .error .internal
              ∨ r = .ok ((((s.accounts.users.lookup userId).map f).filter (·.id = userId)).map
                (s.account.updateUser userId f).account)) := by
      obtain ⟨tr₀, hrun, hcache, rfl⟩ := trace_onApi h
      obtain ⟨haccount, e', rfl, hr⟩ := trace_findUserById hrun
      refine ⟨haccount, hcache, e', rfl, hr.imp_right fun hr => hr.trans ?_⟩
      rw [← AssocMap.lookup_modify_self]
      rfl
    cases hrow : s.accounts.users.lookup userId with
    | none =>
      -- no row is written, and there is nothing to confirm
      have hrows : (s.account.updateUser userId f).rows = s.account.rows := by
        have hrow' : s.account.app.accounts.users.lookup userId = none := hrow
        simp [AccountState.rows, AccountState.updateUser, AccountState.withAccounts, AssocMap.modify, hrow']
      obtain ⟨err, -, hfind⟩ | ⟨found, s₂, tr₃, tr₄, hfind, hdone, rfl⟩ := Prog.trace_run_bind_iff.1 hrest
      . obtain ⟨haccount, hcache, -⟩ := hfound hfind
        exact ⟨hcache, .inl (haccount ▸ hrows)⟩
      . obtain ⟨haccount, hcache, -⟩ := hfound hfind
        split at hdone
        . obtain ⟨-, -, rfl⟩ := Prog.trace_done_iff.1 hdone
          exact ⟨hcache, .inl (haccount ▸ hrows)⟩
        . obtain ⟨-, -, rfl⟩ := Prog.trace_done_iff.1 hdone
          exact ⟨hcache, .inl (haccount ▸ hrows)⟩
    | some row =>
      have hid : row.id = userId := hkeyed userId row hrow
      obtain ⟨err, -, hfind⟩ | ⟨found, s₂, tr₃, tr₄, hfind, hdone, rfl⟩ := Prog.trace_run_bind_iff.1 hrest
      . obtain ⟨haccount, hcache, e', rfl, ⟨hfails', -⟩ | hr⟩ := hfound hfind
        . refine ⟨hcache, .inr ⟨?_, .inr ⟨_, _, List.infix_rfl, rfl, hfails'⟩⟩⟩
          show Rewrites userId s.accounts s'.account.app.accounts
          rw [haccount]
          exact hrewrites
        . contradiction
      . obtain ⟨haccount, hcache, e', rfl, ⟨-, hr⟩ | hr⟩ := hfound hfind
        . contradiction
        obtain rfl := Except.ok.inj hr
        have hkept : ((some row).map f).filter (·.id = userId) = some (f row) := by simp [Option.filter, f, hid]
        rw [hrow, hkept] at hdone
        obtain ⟨-, rfl, rfl⟩ := Prog.trace_done_iff.1 hdone
        refine ⟨hcache, .inr ⟨?_, .inl ⟨row, _, hid ▸ hrow, hid, rfl, rfl⟩⟩⟩
        show Rewrites userId s.accounts s'.account.app.accounts
        rw [haccount]
        exact hrewrites

theorem setUserBadges {admin : AuthenticatedUser} {userId : String} {badges : List String} {r : ApiResult AccountReply}
    (hkeyed : s.accounts.Keyed)
    (h : Prog.Trace (Cached.setUserBadges x admin userId badges).run s tr r s') (hconfirmed : ¬ FailsAfterWrite tr)
    : KeepsCoherent live s s' := by
  unfold Cached.setUserBadges at h
  split at h
  . obtain ⟨-, -, rfl⟩ := Prog.trace_done_iff.1 h
    exact .of_same (.refl _)
  obtain ⟨err, -, hset⟩ | ⟨updated, s₁, tr₁, tr₂, hset, hrest, rfl⟩ := Prog.trace_run_bind_iff.1 h
  . obtain ⟨hcache, hrows | ⟨-, ⟨_, _, -, -, herr, -⟩ | hfails⟩⟩ := trace_setUserBadges hkeyed hset
    . exact .of_rows hrows fun key c hc => hcache ▸ hc
    . contradiction
    . exact absurd hfails hconfirmed
  obtain ⟨u, s₂, tr₃, tr₄, hbroadcast, hrest', rfl⟩ := Prog.trace_run_lift_bind_iff.1 hrest
  have hsame : SameShown s₁ s₂ := sameShown_onSession (.broadcastBadgeUpdate _) hbroadcast
  obtain ⟨u', s₃, tr₅, tr₆, hinvalidate, hdone, rfl⟩ := Prog.trace_run_lift_bind_iff.1 hrest'
  have hdrops := trace_invalidate hinvalidate
  obtain ⟨-, -, rfl⟩ := Prog.trace_run_pure_iff.1 hdone
  obtain ⟨hcache, hrows | ⟨hrewrites, ⟨row, _, hrow, rfl, hok, hname⟩ | hfails⟩⟩ := trace_setUserBadges hkeyed hset
  . have hfirst : KeepsCoherent live s s₁ := .of_rows hrows fun key c hc => hcache ▸ hc
    exact hfirst.trans (.trans (.of_same hsame) (.of_drops hdrops))
  . obtain rfl := Except.ok.inj hok
    rw [hname] at hdrops
    exact of_invalidated hrow (hsame.accounts ▸ hrewrites) (hsame.cache.trans hcache) hdrops
  . exact absurd (hfails.of_within (List.prefix_append _ _).isInfix) hconfirmed

end Writes

end KeepsCoherent

/--
The accounts that are cached keep their badges when some rows go.
-/
def ProfileState.KeepsBadges (s : ProfileState) (live : CachedPublicProfile → Prop) (userIds : List String) : Prop :=
  ∀ id user, s.accounts.users.lookup id = some user →
    (s.accounts.without userIds).userBadges user = s.accounts.userBadges user
      ∨ (s.accounts.authenticatedUser user).publicProfile.Uncached live s

namespace KeepsCoherent

section Deletions

variable {userIds : List String}

theorem of_sheds_nil (h : Sheds [] s.accounts s'.accounts)
    (hkept : ∀ key c, s'.publicProfileCache.lookup key = some c → s.publicProfileCache.lookup key = some c)
    : KeepsCoherent live s s' := by
  refine .of_rows (Prod.ext (h.users.trans ?_) h.admins) hkept
  exact AList.ext (by simp [AccountDatabase.without, AssocMap.retain, AccountState.rows])

theorem deleteAccount {token password : String} {r : ApiResult AccountReply} (hkeyed : s.accounts.Keyed)
    (h : Prog.Trace (Cached.deleteAccount x token password).run s tr r s')
    (hbadges : ∀ row, s.accounts.tokenUser? token = some row → s.KeepsBadges live [row.id])
    : KeepsCoherent live s s' := by
  obtain ⟨err, -, hauth⟩ | ⟨found, s₁, tr₁, tr₂, hauth, hrest, rfl⟩ := Prog.trace_run_bind_iff.1 h
  . obtain ⟨tr₀, hrun, hcache, -⟩ := trace_onApi hauth
    exact .of_same ⟨congrArg AppState.accounts (trace_authenticate hrun).1, hcache⟩
  obtain ⟨tr₀, hrun, hcache, -⟩ := trace_onApi hauth
  obtain ⟨happ, hfound⟩ := trace_authenticate hrun
  have hsame : SameShown s s₁ := ⟨congrArg AppState.accounts happ, hcache⟩
  clear h hauth
  split at hrest
  next user =>
    obtain ⟨row, htoken, rfl⟩ := hfound user rfl
    obtain ⟨err, -, hdelete⟩ | ⟨u, s₂, tr₃, tr₄, hdelete, hrest', rfl⟩ := Prog.trace_run_bind_iff.1 hrest
    . obtain ⟨tr₁, hrun', hcache', -⟩ := trace_onApi hdelete
      rcases trace_deleteAccount hrun' with ⟨-, hsheds⟩ | ⟨herr, -⟩
      . exact .trans (.of_same hsame) (.of_sheds_nil hsheds fun key c hc => hcache' ▸ hc)
      . contradiction
    obtain ⟨tr₁, hrun', hcache', -⟩ := trace_onApi hdelete
    obtain ⟨u', s₃, tr₅, tr₆, hclose, hrest'', rfl⟩ := Prog.trace_run_lift_bind_iff.1 hrest'
    obtain ⟨tr₂, hclosed, hcache'', -⟩ := trace_onAccounts hclose
    have haccounts : s₃.accounts = s₂.accounts := KeepsTables.disconnectUserSessions _ _ _ _ _ _ hclosed
    obtain ⟨u'', s₄, tr₇, tr₈, hinvalidate, hdone, rfl⟩ := Prog.trace_run_lift_bind_iff.1 hrest''
    have hdrops := trace_invalidate hinvalidate
    obtain ⟨-, -, rfl⟩ := Prog.trace_run_pure_iff.1 hdone
    have hkept (key : String) (c : CachedPublicProfile) (hc : s'.publicProfileCache.lookup key = some c)
        : s.publicProfileCache.lookup key = some c :=
      hcache ▸ hcache' ▸ hcache'' ▸ hdrops.kept key c hc
    rcases trace_deleteAccount hrun' with ⟨⟨_, herr⟩, -⟩ | ⟨-, row', htoken', hsheds⟩
    . contradiction
    have hsheds' : Sheds [row.id] s.accounts s'.accounts := by
      have hlast : s'.accounts = s₂.accounts := (congrArg (·.app.accounts) hdrops.account).trans haccounts
      rw [happ] at htoken' hsheds
      obtain rfl := Option.some.inj (htoken.symm.trans htoken')
      rw [hlast]
      exact hsheds
    refine .of_sheds hsheds' (List.Subset.refl _) hkept (fun id hid shown hshown => ?_) (hbadges row htoken)
    obtain rfl := List.mem_singleton.1 hid
    have hrow := AccountDatabase.lookup_tokenUser htoken hkeyed
    obtain rfl := Option.some.inj ((AccountDatabase.publicProfile?_of_lookup hrow).symm.trans hshown)
    exact PublicProfile.uncached_of_drops hdrops
  next =>
    obtain ⟨-, -, rfl⟩ := Prog.trace_done_iff.1 hrest
    exact .of_same hsame

theorem deleteUserAccount {admin : AuthenticatedUser} {userId : String} {r : ApiResult AccountReply}
    (hkeyed : s.accounts.Keyed)
    (h : Prog.Trace (Cached.deleteUserAccount admin userId).run s tr r s')
    (hbadges : admin.admin = true → s.KeepsBadges live [userId])
    (hname : admin.admin = true → ∀ shown, s.accounts.publicProfile? userId = some shown →
      ∀ c, s.publicProfileCache.lookup shown.nameKey = some c → ¬ live c)
    : KeepsCoherent live s s' := by
  obtain ⟨err, -, hdelete⟩ | ⟨reply, s₁, tr₁, tr₂, hdelete, hrest, rfl⟩ := Prog.trace_run_bind_iff.1 h
  . obtain ⟨tr₀, hrun, hcache, -⟩ := trace_onApi hdelete
    rcases trace_adminDeleteUserAccount hrun with ⟨-, hsheds⟩ | ⟨⟨_, herr⟩, -⟩
    . exact .of_sheds_nil hsheds fun key c hc => hcache ▸ hc
    . contradiction
  obtain ⟨tr₀, hrun, hcache, -⟩ := trace_onApi hdelete
  obtain ⟨u, s₂, tr₃, tr₄, hinvalidate, hdone, rfl⟩ := Prog.trace_run_lift_bind_iff.1 hrest
  have hdrops := trace_invalidate hinvalidate
  obtain ⟨-, -, rfl⟩ := Prog.trace_run_pure_iff.1 hdone
  have haccounts : s'.accounts = s₁.accounts := congrArg (·.app.accounts) hdrops.account
  have hkept (key : String) (c : CachedPublicProfile) (hc : s'.publicProfileCache.lookup key = some c)
      : s.publicProfileCache.lookup key = some c := hcache ▸ hdrops.kept key c hc
  rcases trace_adminDeleteUserAccount hrun with ⟨-, hsheds⟩ | ⟨-, hadmin, hsheds⟩
  . exact .of_sheds_nil (haccounts ▸ hsheds) hkept
  . refine .of_sheds (haccounts ▸ hsheds) (List.Subset.refl _) hkept (fun id hid shown hshown => ?_) (hbadges hadmin)
    obtain rfl := List.mem_singleton.1 hid
    intro key hkey c hc
    rcases List.mem_cons.1 hkey with rfl | hkey
    . have hid := AccountDatabase.userId_of_publicProfile? hshown hkeyed
      have hnone := hdrops.id id rfl
      rw [← hid] at hnone
      exact nomatch hnone.symm.trans hc
    . obtain rfl := List.mem_singleton.1 hkey
      exact hname hadmin shown hshown c (hkept _ c hc)

theorem purgeAccounts {admin : AuthenticatedUser} {filter : PurgeFilter} {r : ApiResult AccountReply}
    (h : Prog.Trace (onApi (Admin.purgeAccounts x admin filter)).run s tr r s')
    (hbadges : admin.admin = true → s.KeepsBadges live (s.accounts.purgeTargets x filter))
    (huncached : admin.admin = true → ∀ id ∈ s.accounts.purgeTargets x filter, ∀ shown,
      s.accounts.publicProfile? id = some shown → shown.Uncached live s)
    : KeepsCoherent live s s' := by
  obtain ⟨tr₀, hrun, hcache, -⟩ := trace_onApi h
  obtain ⟨ids, hsheds, rfl | hadmin, hsub⟩ := trace_purgeAccounts hrun
  . exact .of_sheds_nil hsheds fun key c hc => hcache ▸ hc
  . refine .of_sheds hsheds hsub (fun key c hc => hcache ▸ hc) (fun id hid shown hshown => ?_) (hbadges hadmin)
    exact (huncached hadmin id (hsub hid) shown hshown).of_kept fun key c hc => hcache ▸ hc

end Deletions

theorem settings {sid : String} {d : Json} {b : Bool}
    (h : Prog.Trace (onSession (some sid) (updateClientSettings sid d)) s tr b s')
    (huncached : (d.get? "profile").isSome → ∀ player, s.players.lookup sid = some player →
      ∀ shown, s.accounts.publicProfile? player.userId = some shown → shown.Uncached live s)
    : KeepsCoherent live s s' := by
  obtain ⟨tr₀, hrun, hcache, -⟩ := trace_onSession h
  have hkept (key : String) (c : CachedPublicProfile) (hc : s'.publicProfileCache.lookup key = some c)
      : s.publicProfileCache.lookup key = some c := hcache ▸ hc
  rcases trace_rewritesSettings hrun with haccounts | ⟨player, hplayer, hrewrites, hsame⟩
  . exact .of_same ⟨haccounts, hcache⟩
  . refine .of_rewrites hrewrites hkept ?_
    cases hprofile : d.get? "profile" with
    | none => exact .inl (hsame hprofile)
    | some raw =>
      refine .inr fun shown hshown => .of_kept (huncached ?_ player hplayer shown hshown) hkept
      rw [hprofile]
      rfl

end KeepsCoherent

end Lqxp
