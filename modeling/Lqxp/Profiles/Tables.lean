import Lqxp.Core.PublicProfiles
import Lqxp.Data.AssocTotal
import Lqxp.Prog.Nested
import Lqxp.Services.Profiles
import Lqxp.Websocket.Protocol.Lemmas.Binding
import Lqxp.Websocket.Protocol.Lemmas.Profiles

/-!
This module contains what the accounts show in public, how far it stays the same when the row of one account is
written or when the rows of some are deleted, and what the pieces of the services do to the account tables in an
uninterrupted run.
-/

namespace Lqxp

namespace PublicProfile

def idKey (shown : PublicProfile) : String := "id:" ++ Text.trim shown.userId

def nameKey (shown : PublicProfile) : String := "username:" ++ Text.toAsciiLower (Text.trim shown.username)

/--
The keys under which the cache may keep a profile.
-/
def cacheKeys (shown : PublicProfile) : List String := [shown.idKey, shown.nameKey]

end PublicProfile

namespace AccountDatabase

def publicProfile? (db : AccountDatabase) (userId : String) : Option PublicProfile :=
  (db.users.lookup userId).map fun user => (db.authenticatedUser user).publicProfile

/--
The rows are kept under their ids.
-/
def Keyed (db : AccountDatabase) : Prop := db.users.All fun userId user => user.id = userId

def without (db : AccountDatabase) (userIds : List String) : AccountDatabase :=
  { db with users := db.users.retain fun userId _ => !userIds.contains userId }

variable {db db' : AccountDatabase} {userId : String} {userIds userIds' : List String}

theorem publicProfile?_congr (hlookup : db'.users.lookup userId = db.users.lookup userId)
    (hbadges : ∀ user, db.users.lookup userId = some user → db'.userBadges user = db.userBadges user)
    : db'.publicProfile? userId = db.publicProfile? userId := by
  rw [publicProfile?, publicProfile?, hlookup]
  refine Option.map_congr fun user huser => ?_
  rw [authenticatedUser, authenticatedUser, hbadges user huser]
  rfl

theorem userId_of_publicProfile? {shown : PublicProfile} (h : db.publicProfile? userId = some shown) (hkeyed : db.Keyed)
    : shown.userId = userId := by
  obtain ⟨user, huser, rfl⟩ := Option.map_eq_some_iff.1 h
  exact hkeyed userId user huser

section Ranks

/--
Whether an account has been registered before another one.
-/
def isBefore (user other : StoredUser) : Bool :=
  other.createdAt < user.createdAt || (other.createdAt = user.createdAt && other.id < user.id)

theorem userRank_eq_total (db : AccountDatabase) (user : StoredUser)
    : db.userRank user = 1 + AssocMap.total (fun other => if isBefore user other then 1 else 0) db.users := by
  rw [AssocMap.total_indicator]
  rfl

theorem userRank_modify {f : StoredUser → StoredUser} (hid : ∀ other, (f other).id = other.id)
    (hcreated : ∀ other, (f other).createdAt = other.createdAt) (husers : db'.users = db.users.modify userId f)
    (user : StoredUser) : db'.userRank user = db.userRank user := by
  have hsame (other : StoredUser)
      : (if isBefore user (f other) then 1 else 0) = if isBefore user other then 1 else 0 := by
    rw [isBefore, isBefore, hid, hcreated]
  rw [userRank_eq_total, userRank_eq_total, husers, AssocMap.total_modify hsame]

theorem userBadges_congr (hadmins : db'.adminIds = db.adminIds) {user : StoredUser}
    (hrank : db'.userRank user ≤ 200 ↔ db.userRank user ≤ 200) : db'.userBadges user = db.userBadges user := by
  rw [userBadges, userBadges, isAdmin, isAdmin, hadmins]
  simp only [hrank]

end Ranks

theorem publicProfile?_of_rows (husers : db'.users = db.users) (hadmins : db'.adminIds = db.adminIds)
    : db'.publicProfile? = db.publicProfile? := by
  funext userId
  refine publicProfile?_congr (by rw [husers]) fun user _ => userBadges_congr hadmins ?_
  rw [userRank, userRank, husers]

section Writes

/--
A write of the row of one account that leaves its id and the time of its registration alone.
-/
structure Rewrites (userId : String) (db db' : AccountDatabase) : Prop where
  admins : db'.adminIds = db.adminIds
  others (other : String) : other ≠ userId → db'.users.lookup other = db.users.lookup other
  row (user' : StoredUser)
    : db'.users.lookup userId = some user' → ∃ user, db.users.lookup userId = some user ∧ user'.id = user.id
  ranks (user : StoredUser) : db'.userRank user = db.userRank user

namespace Rewrites

theorem refl (userId : String) (db : AccountDatabase) : Rewrites userId db db :=
  ⟨rfl, fun _ _ => rfl, fun user h => ⟨user, h, rfl⟩, fun _ => rfl⟩

theorem trans {db'' : AccountDatabase} (h : Rewrites userId db db') (h' : Rewrites userId db' db'')
    : Rewrites userId db db'' where
  admins := h'.admins.trans h.admins
  others other hne := (h'.others other hne).trans (h.others other hne)
  row user'' huser'' := by
    obtain ⟨user', huser', hid'⟩ := h'.row user'' huser''
    obtain ⟨user, huser, hid⟩ := h.row user' huser'
    exact ⟨user, huser, hid'.trans hid⟩
  ranks user := (h'.ranks user).trans (h.ranks user)

theorem of_modify {f : StoredUser → StoredUser} (hid : ∀ other, (f other).id = other.id)
    (hcreated : ∀ other, (f other).createdAt = other.createdAt) (husers : db'.users = db.users.modify userId f)
    (hadmins : db'.adminIds = db.adminIds) : Rewrites userId db db' where
  admins := hadmins
  others other hne := by rw [husers, AssocMap.lookup_modify_ne hne]
  row user' huser' := by
    rw [husers, AssocMap.lookup_modify_self] at huser'
    obtain ⟨user, huser, rfl⟩ := Option.map_eq_some_iff.1 huser'
    exact ⟨user, huser, hid user⟩
  ranks := userRank_modify hid hcreated husers

theorem keyed (h : Rewrites userId db db') (hkeyed : db.Keyed) : db'.Keyed := by
  intro other user' huser'
  by_cases hother : other = userId
  . subst hother
    obtain ⟨user, huser, hid⟩ := h.row user' huser'
    rw [hid]
    exact hkeyed other user huser
  . rw [h.others other hother] at huser'
    exact hkeyed other user' huser'

theorem publicProfile? {other : String} (h : Rewrites userId db db') (hne : other ≠ userId)
    : db'.publicProfile? other = db.publicProfile? other :=
  publicProfile?_congr (h.others other hne) fun user _ => userBadges_congr h.admins (by rw [h.ranks])

end Rewrites

theorem publicProfile?_modify {f : StoredUser → StoredUser} (husers : db'.users = db.users.modify userId f)
    (hadmins : db'.adminIds = db.adminIds)
    (hf : ∀ user, (f user).id = user.id ∧ (f user).username = user.username ∧ (f user).profile = user.profile
      ∧ (f user).customBadges = user.customBadges ∧ (f user).createdAt = user.createdAt)
    : db'.publicProfile? userId = db.publicProfile? userId := by
  rw [AccountDatabase.publicProfile?, AccountDatabase.publicProfile?, husers, AssocMap.lookup_modify_self,
    Option.map_map]
  refine Option.map_congr fun user _ => ?_
  obtain ⟨hid, husername, hprofile, hcustom, hcreated⟩ := hf user
  have hrank : db'.userRank (f user) = db.userRank user := by
    rw [userRank_modify (fun other => (hf other).1) (fun other => (hf other).2.2.2.2) husers]
    rw [userRank, userRank, hid, hcreated]
  have hbadges : db'.userBadges (f user) = db.userBadges user := by
    rw [userBadges, userBadges, isAdmin, isAdmin, hadmins, hid, hcustom, hrank]
  simp only [Function.comp_apply, authenticatedUser, AuthenticatedUser.publicProfile, hid, husername, hprofile,
    hcreated, hbadges]

end Writes

section Deletions

/--
The rows of some accounts have been deleted.
-/
structure Sheds (userIds : List String) (db db' : AccountDatabase) : Prop where
  admins : db'.adminIds = db.adminIds
  users : db'.users = (db.without userIds).users

namespace Sheds

theorem of_same (husers : db'.users = db.users) (hadmins : db'.adminIds = db.adminIds) : Sheds [] db db' where
  admins := hadmins
  users := by
    rw [husers]
    exact AList.ext (by simp [without, AssocMap.retain])

theorem of_erase (husers : db'.users = db.users.erase userId) (hadmins : db'.adminIds = db.adminIds)
    : Sheds [userId] db db' where
  admins := hadmins
  users := by
    rw [husers, AssocMap.erase_eq_retain]
    exact AList.ext (by simp [without, AssocMap.retain])

theorem trans {db'' : AccountDatabase} (h : Sheds userIds db db') (h' : Sheds userIds' db' db'')
    : Sheds (userIds ++ userIds') db db'' where
  admins := h'.admins.trans h.admins
  users := by
    rw [h'.users, without, h.users]
    refine (AssocMap.retain_retain (fun userId _ => !userIds.contains userId)
      (fun userId _ => !userIds'.contains userId) db.users).trans (AList.ext (List.filter_congr fun entry _ => ?_))
    simp

theorem lookup (h : Sheds userIds db db') (userId : String)
    : db'.users.lookup userId = if userId ∈ userIds then none else db.users.lookup userId := by
  rw [h.users, without, AssocMap.lookup_retain]
  split
  next hmem => cases db.users.lookup userId <;> simp [Option.filter, hmem]
  next hmem => cases db.users.lookup userId <;> simp [Option.filter, hmem]

theorem keyed (h : Sheds userIds db db') (hkeyed : db.Keyed) : db'.Keyed := by
  intro userId user huser
  rw [h.lookup] at huser
  split at huser
  . contradiction
  . exact hkeyed userId user huser

theorem userRank_le (h : Sheds userIds db db') (user : StoredUser) : db'.userRank user ≤ db.userRank user := by
  rw [userRank_eq_total, userRank_eq_total, h.users]
  exact Nat.add_le_add_left (AssocMap.total_retain_le _ _ _) 1

theorem le_userRank (h : Sheds userIds db db') (hsub : userIds ⊆ userIds') (user : StoredUser)
    : (db.without userIds').userRank user ≤ db'.userRank user := by
  have husers : (db.without userIds').users = db'.users.retain fun userId _ => !userIds'.contains userId := by
    rw [h.users, without, without, AssocMap.retain_retain]
    refine AList.ext (List.filter_congr fun entry _ => ?_)
    by_cases hmem : entry.1 ∈ userIds
    . simp [hmem, hsub hmem]
    . simp [hmem]
  rw [userRank_eq_total, userRank_eq_total, husers]
  exact Nat.add_le_add_left (AssocMap.total_retain_le _ _ _) 1

theorem userBadges (h : Sheds userIds db db') (hsub : userIds ⊆ userIds') {user : StoredUser}
    (hkept : (db.without userIds').userBadges user = db.userBadges user)
    : db'.userBadges user = db.userBadges user := by
  by_cases hrank : db'.userRank user ≤ 200
  . have hrank' : (db.without userIds').userRank user ≤ 200 := Nat.le_trans (h.le_userRank hsub user) hrank
    have hadmins : db'.adminIds = (db.without userIds').adminIds := h.admins
    exact (userBadges_congr hadmins (iff_of_true hrank hrank')).trans hkept
  . have hrank' : ¬ db.userRank user ≤ 200 := fun hle => hrank (Nat.le_trans (h.userRank_le user) hle)
    exact userBadges_congr h.admins (iff_of_false hrank hrank')

end Sheds

end Deletions

end AccountDatabase

end Lqxp

namespace Lqxp

/--
A piece of a handler that leaves the account tables as they are.
-/
abbrev KeepsAccounts (p : Proto α) : Prop := p.Preserves AppState.accounts

namespace KeepsAccounts

theorem pure (a : α) : KeepsAccounts (pure a) := Prog.Preserves.pure a

theorem bind {p : Proto α} {f : α → Proto β} (hp : KeepsAccounts p) (hf : ∀ a, KeepsAccounts (f a))
    : KeepsAccounts (p >>= f) :=
  Prog.Preserves.bind hp hf

theorem of_aside {p : Proto α} (hp : Aside p) : KeepsAccounts p :=
  fun _ _ _ _ h => (hp.trace h).1.accounts

theorem look (f : Env → AppState → α) : KeepsAccounts (look f) := .atom fun _ _ => rfl

theorem broadcastToRoom (gameId : String) (payload : Json) : KeepsAccounts (broadcastToRoom gameId payload) :=
  .atom fun _ _ => rfl

theorem roomRecord (roomId : String) : KeepsAccounts (roomRecord roomId) := .atom fun _ _ => rfl

theorem syncRoomRecord (roomId : String) : KeepsAccounts (syncRoomRecord roomId) := by
  refine .bind (.look _) fun usernames => .bind (.roomRecord _) fun previous => .bind (.atom fun e s => ?_) fun stored => ?_
  . split
    . rfl
    . rfl
  . split
    . exact .pure _
    . exact .pure _

theorem clearOnLeave (roomId username : String) (shouldClearMessages : Bool)
    : KeepsAccounts (clearOnLeave roomId username shouldClearMessages) := by
  unfold Lqxp.clearOnLeave
  split
  . refine .bind (.atom fun _ _ => rfl) fun deletedAt => .bind (.atom fun e s => ?_) fun ids => ?_
    . split
      . rfl
      . rfl
    . unfold announceCleared
      split
      . exact .pure _
      . exact .bind (.broadcastToRoom _ _) fun _ => .pure _
  . exact .pure _

theorem leaveBehindAll (player : PlayerSession) (rooms : List String)
    : KeepsAccounts (leaveBehindAll player rooms) := by
  have hleft (gameId : String) : KeepsAccounts (announceLeft player gameId) := by
    unfold announceLeft
    split
    . exact .pure _
    . exact .bind (.roomRecord _) fun _ => .broadcastToRoom _ _
  have hhungUp (gameId : String) : KeepsAccounts (announceHungUp player gameId) := by
    unfold announceHungUp
    split
    . exact .pure _
    . exact .broadcastToRoom _ _
  induction rooms with
  | nil => exact .pure _
  | cons gameId rooms ih =>
    refine .bind (.bind (.syncRoomRecord _) fun _ => .bind (hleft _) fun _ => ?_) fun _ => ih
    exact .bind (.clearOnLeave _ _ _) fun _ => hhungUp _

theorem disconnectPlayer (sid : String) : KeepsAccounts (disconnectPlayer sid) := by
  refine .bind (.atom fun e s => ?_) fun player => ?_
  . split
    . rfl
    . rfl
  . split
    . split
      . exact .bind (.of_aside (.broadcastSyncPeerEvent _ _ _ _ _)) fun _ => .leaveBehindAll _ _
      . exact .leaveBehindAll _ _
    . exact .pure _

theorem parseImageField (raw : Json) (key : String) (maxBytes : Nat) (current : Option ProfileImage)
    : KeepsAccounts (parseImageField raw key maxBytes current) := by
  unfold Lqxp.parseImageField
  split
  . unfold parseProfileImage
    split
    . split
      . exact .pure _
      . refine .bind (.atom fun e s => ?_) fun stored => ?_
        . split
          . rfl
          . rfl
        . split
          . exact .pure _
          . exact .pure _
    . exact .pure _
  . exact .pure _

theorem parseUserProfile (current : UserProfile) (raw : Option Json)
    : KeepsAccounts (parseUserProfile current raw) := by
  unfold Lqxp.parseUserProfile
  split
  . split
    . exact .pure _
    . split
      . exact .pure _
      . refine .bind (.parseImageField _ _ _ _) fun avatar => ?_
        split
        . exact .pure _
        . refine .bind (.parseImageField _ _ _ _) fun banner => ?_
          split
          . exact .pure _
          . split
            . exact .pure _
            . exact .pure _
  . exact .pure _

theorem broadcastBadgeUpdate (user : PublicUser) : KeepsAccounts (broadcastBadgeUpdate user) := by
  refine .bind (.atom fun _ _ => rfl) fun shared => .bind (.atom fun _ _ => rfl) fun _ => ?_
  generalize shared.2 = rooms
  induction rooms with
  | nil => exact .pure _
  | cons roomId rooms ih => exact .bind (.look _) fun _ => .bind (.broadcastToRoom _ _) fun _ => ih

end KeepsAccounts

/--
A piece of a service that leaves the account tables as they are.
-/
abbrev KeepsTables (p : Accounts α) : Prop := p.Preserves fun s => s.app.accounts

namespace KeepsTables

theorem bind {p : Accounts α} {f : α → Accounts β} (hp : KeepsTables p) (hf : ∀ a, KeepsTables (f a))
    : KeepsTables (p >>= f) :=
  Prog.Preserves.bind hp hf

theorem handled {sid : Option String} {p : Proto α} (hp : KeepsAccounts p) : KeepsTables (handled sid p) :=
  Prog.Preserves.zoom (w := AppState.accounts) hp

theorem disconnectUserSessions (userId reason : String) : KeepsTables (disconnectUserSessions userId reason) := by
  refine .bind (.atom fun _ _ => rfl) fun sids => ?_
  induction sids with
  | nil => exact .pure _
  | cons sid sids ih =>
    exact .bind (.atom fun _ _ => rfl) fun _ => .bind (.handled (.disconnectPlayer sid)) fun _ => ih

theorem announceRenamedAll (rooms : List String) : KeepsTables (Auth.announceRenamedAll rooms) := by
  induction rooms with
  | nil => exact .pure _
  | cons roomId rooms ih =>
    exact .bind (.handled (.bind (.look _) fun _ => .broadcastToRoom _ _)) fun _ => ih

end KeepsTables

section Statements

variable {s s' : AccountState} {tr : List (AccountEnv × AccountLabel)}

theorem trace_perform {f : AccountEnv → AccountState → α × AccountLabel} {a : α}
    (h : Prog.Trace (perform f) s tr a s')
    : ∃ e, tr = [(e, (f e s).2)] ∧ a = (f e s).1 ∧ s' = (f e s).2.apply s := Prog.trace_atom_iff.1 h

theorem trace_statement {f : AccountEnv → AccountState → ApiResult α × AccountLabel} {r : ApiResult α}
    (h : Prog.Trace (statement f).run s tr r s')
    : ∃ e : AccountEnv, (e.dbFails = true ∧ tr = [(e, .quiet)] ∧ r = .error .internal ∧ s' = s)
        ∨ (e.dbFails = false ∧ tr = [(e, (f e s).2)] ∧ r = (f e s).1 ∧ s' = (f e s).2.apply s) := by
  obtain ⟨e, rfl, rfl, rfl⟩ := trace_perform h
  refine ⟨e, ?_⟩
  cases e.dbFails with
  | true => exact .inl ⟨rfl, rfl, rfl, rfl⟩
  | false => exact .inr ⟨rfl, rfl, rfl, rfl⟩

theorem trace_findUserById {userId : String} {r : ApiResult (Option StoredAccount)}
    (h : Prog.Trace (findUserById userId).run s tr r s')
    : s' = s ∧ ∃ e : AccountEnv, tr = [(e, .quiet)]
        ∧ (e.dbFails = true ∧ r = .error .internal
          ∨ r = .ok (((s.app.accounts.users.lookup userId).filter (·.id = userId)).map s.account)) := by
  obtain ⟨e, ⟨hfails, rfl, rfl, rfl⟩ | ⟨-, rfl, rfl, rfl⟩⟩ := trace_statement h
  . exact ⟨rfl, e, rfl, .inl ⟨hfails, rfl⟩⟩
  . exact ⟨rfl, e, rfl, .inr rfl⟩

theorem trace_findUserByUsername {x : Externals} {username : String} {r : ApiResult (Option StoredAccount)}
    (h : Prog.Trace (findUserByUsername x username).run s tr r s')
    : s' = s ∧ (r = .error .internal
        ∨ r = .ok ((s.app.accounts.users.values.find? (·.username = normalizeUsername x username)).map
          s.account)) := by
  obtain ⟨e, ⟨-, rfl, rfl, rfl⟩ | ⟨-, rfl, rfl, rfl⟩⟩ := trace_statement h
  . exact ⟨rfl, .inl rfl⟩
  . dsimp only
    split
    next hfound => exact ⟨rfl, .inr (by rw [hfound])⟩
    next hnone => exact ⟨rfl, .inr (by rw [hnone])⟩

end Statements

/--
The account that a token has been issued for, unless it is disabled or banned.
-/
def AccountDatabase.tokenUser? (db : AccountDatabase) (token : String) : Option StoredUser :=
  ((db.sessions.lookup (db.tokenHash token)).bind fun row => db.users.lookup row.userId).filter fun user =>
    !user.disabled && !user.banned

section Tokens

theorem trace_authenticate {s s' : AccountState} {tr : List (AccountEnv × AccountLabel)} {token : String}
    {r : ApiResult (Option AuthenticatedUser)} (h : Prog.Trace (authenticate token).run s tr r s')
    : s'.app = s.app ∧ ∀ user, r = .ok (some user) →
        ∃ row, s.app.accounts.tokenUser? token = some row ∧ user = s.app.accounts.authenticatedUser row := by
  obtain ⟨found, s₁, tr₁, tr₂, hzoom, hrest, rfl⟩ := Prog.trace_run_lift_bind_iff.1 h
  obtain ⟨tr₀, hrun, -⟩ := Prog.Trace.of_zoom hzoom
  obtain ⟨-, hsame, hfound⟩ := trace_authenticateToken hrun
  clear h hzoom
  split at hrest
  . obtain ⟨-, rfl, rfl⟩ := Prog.trace_done_iff.1 hrest
    exact ⟨hsame, fun _ h => nomatch h⟩
  next user =>
    obtain ⟨-, rfl, rfl⟩ := Prog.trace_done_iff.1 hrest
    refine ⟨hsame, fun user' h => ?_⟩
    obtain ⟨row, found, hrow, -, hlookup, hdisabled, hbanned, rfl⟩ := hfound user' (congrArg some (Except.ok.inj h))
    have htoken : s.app.accounts.tokenUser? token = some found := by
      have hrow' : s.app.accounts.sessions.lookup (s.app.accounts.tokenHash token) = some row := hrow
      have hlookup' : s.app.accounts.users.lookup row.userId = some found := hlookup
      simp [AccountDatabase.tokenUser?, hrow', hlookup', hdisabled, hbanned]
    exact ⟨found, htoken, rfl⟩

end Tokens

section Rows

/--
The rows of the accounts and who is an administrator.
-/
def AccountState.rows (s : AccountState) : AssocMap String StoredUser × List String :=
  (s.app.accounts.users, s.app.accounts.adminIds)

open AccountDatabase (Sheds Rewrites)

variable {s s' : AccountState} {tr : List (AccountEnv × AccountLabel)} {userId : String}

theorem sheds_of_rows (h : s'.rows = s.rows) : Sheds [] s.app.accounts s'.app.accounts :=
  .of_same (congrArg Prod.fst h) (congrArg Prod.snd h)

theorem preserves_statement {f : AccountEnv → AccountState → ApiResult α × AccountLabel}
    (hf : ∀ e s, ((f e s).2.apply s).rows = s.rows) : Prog.Preserves AccountState.rows (statement f).run := by
  refine .atom fun e s => ?_
  dsimp only
  split
  . rfl
  . exact hf e s

theorem preserves_findUserById (userId : String) : Prog.Preserves AccountState.rows (findUserById userId).run :=
  preserves_statement fun _ _ => rfl

theorem preserves_deleteOtherRows : Prog.Preserves AccountState.rows deleteOtherRows.run :=
  preserves_statement fun _ _ => rfl

theorem trace_deleteUserRow {r : ApiResult Unit} (h : Prog.Trace (deleteUserRow userId).run s tr r s')
    : (∃ err, r = .error err) ∧ Sheds [] s.app.accounts s'.app.accounts
        ∨ r = .ok () ∧ Sheds [userId] s.app.accounts s'.app.accounts := by
  obtain ⟨e, ⟨-, rfl, rfl, rfl⟩ | ⟨-, rfl, rfl, rfl⟩⟩ := trace_statement h
  . exact .inl ⟨⟨_, rfl⟩, sheds_of_rows rfl⟩
  . exact .inr ⟨rfl, .of_erase rfl rfl⟩

theorem sheds_after_rows {p : Api α} {f : α → Api Unit} {r : ApiResult Unit}
    (hp : Prog.Preserves AccountState.rows p.run)
    (hf : ∀ a s₁ tr₁, Prog.Trace (f a).run s₁ tr₁ r s' →
      (∃ err, r = .error err) ∧ Sheds [] s₁.app.accounts s'.app.accounts
        ∨ r = .ok () ∧ Sheds [userId] s₁.app.accounts s'.app.accounts)
    (h : Prog.Trace (p >>= f).run s tr r s')
    : (∃ err, r = .error err) ∧ Sheds [] s.app.accounts s'.app.accounts
        ∨ r = .ok () ∧ Sheds [userId] s.app.accounts s'.app.accounts := by
  obtain ⟨err, rfl, hfails⟩ | ⟨a, s₁, tr₁, tr₂, hfirst, hrest, rfl⟩ := Prog.trace_run_bind_iff.1 h
  . exact .inl ⟨⟨err, rfl⟩, sheds_of_rows (hp _ _ _ _ hfails)⟩
  have hrows : Sheds [] s.app.accounts s₁.app.accounts := sheds_of_rows (hp _ _ _ _ hfirst)
  rcases hf a s₁ tr₂ hrest with ⟨herr, hsheds⟩ | ⟨hok, hsheds⟩
  . exact .inl ⟨herr, hrows.trans hsheds⟩
  . exact .inr ⟨hok, hrows.trans hsheds⟩

theorem trace_deleteUserAccount {r : ApiResult Unit}
    (h : Prog.Trace (AccountDatabase.deleteUserAccount userId).run s tr r s')
    : (∃ err, r = .error err) ∧ Sheds [] s.app.accounts s'.app.accounts
        ∨ r = .ok () ∧ Sheds [userId] s.app.accounts s'.app.accounts := by
  refine sheds_after_rows (preserves_findUserById userId) (fun account s₁ tr₁ hrest => ?_) h
  split at hrest
  . obtain ⟨-, rfl, rfl⟩ := Prog.trace_done_iff.1 hrest
    exact .inl ⟨⟨_, rfl⟩, sheds_of_rows rfl⟩
  refine sheds_after_rows (preserves_statement fun _ _ => rfl) (fun _ s₂ tr₂ hrest => ?_) hrest
  refine sheds_after_rows preserves_deleteOtherRows (fun _ s₃ tr₃ hrest => ?_) hrest
  refine sheds_after_rows preserves_deleteOtherRows (fun _ s₄ tr₄ hrest => ?_) hrest
  exact trace_deleteUserRow hrest

end Rows

end Lqxp
