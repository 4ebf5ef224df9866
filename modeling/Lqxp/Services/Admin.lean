import Lqxp.Services.Auth

/-!
This module contains the account services for administrators: disabling, banning, deleting and purging
accounts.
-/

namespace Lqxp

/--
Which accounts a purge asks for.
-/
structure PurgeFilter where
  createdAfterMs : Option (BitVec 64) := none
  createdBeforeMs : Option (BitVec 64) := none
  minUsernameLen : Option Nat := none
  maxUsernameLen : Option Nat := none
  usernameContains : Option String := none

namespace PurgeFilter

variable (filter : PurgeFilter)

/--
The bounds in the statement. The database has signed numbers only, and a bound of 2 ^ 63 or more turns
negative.
-/
def after : Int := (filter.createdAfterMs.map BitVec.toInt).getD (-2 ^ 63)

def before : Int := (filter.createdBeforeMs.map BitVec.toInt).getD (2 ^ 63 - 1)

def like (x : Externals) : String :=
  match (filter.usernameContains.map Text.trim).filter (· ≠ "") with
  | some value => "%" ++ escapeLikePattern (x.toLowercase value) ++ "%"
  | none => "%"

def isCandidate (x : Externals) (user : StoredUser) : Bool :=
  filter.after ≤ user.createdAt && user.createdAt ≤ filter.before
    && x.sqlLike (filter.like x) (x.sqlLower user.username)

end PurgeFilter

variable (x : Externals)

namespace AccountDatabase

/--
The accounts that a purge looks at, with their names.
-/
def purgeCandidates (filter : PurgeFilter) : Api (List (String × String)) :=
  statement fun _ s =>
    let rows := s.app.accounts.users.values.filter (filter.isCandidate x)
    (.ok (rows.map fun user => (user.id, user.username)), .quiet)

/--
Whether a candidate is to be purged: no administrator, and with a name of the right length.
-/
def isPurged (filter : PurgeFilter) (adminIds : List String) (id username : String) : Bool :=
  let charLen := username.toList.length
  !adminIds.contains id && filter.minUsernameLen.all (· ≤ charLen)
    && filter.maxUsernameLen.all (charLen ≤ ·)

def purgeAll (filter : PurgeFilter) (adminIds : List String) : List (String × String) → Nat → Api Nat
  | [], count => return count
  | (id, username) :: candidates, count => do
    if isPurged filter adminIds id username then
      match ← attempt (deleteUserAccount id) with
      | .ok () => purgeAll filter adminIds candidates (count + 1)
      | .error _ => purgeAll filter adminIds candidates count
    else
      purgeAll filter adminIds candidates count

def purgeAccounts (filter : PurgeFilter) : Api Nat := do
  let candidates ← purgeCandidates x filter
  let adminIds ← ExceptT.lift (perform fun _ s => (s.app.accounts.adminIds, .quiet))
  purgeAll filter adminIds candidates 0

def publicUserById (userId : String) : Api (Option PublicUser) := do
  let userId := Text.trim userId
  if userId = "" then
    return none
  return (← findUserById userId).map (·.publicUser)

end AccountDatabase

namespace Admin

/--
An administrator must not aim at its own account.
-/
def checkAdmin (admin : AuthenticatedUser) (targetUserId text : String) : ApiResult Unit :=
  if !admin.admin then
    throw (.forbidden "Admin only.")
  else if admin.id = targetUserId then
    throw (.badRequest text)
  else
    return ()

def confirmedUser (userId : String) : Api PublicUser := do
  let some user ← AccountDatabase.publicUserById userId
    | throw (.badRequest "Account not found.")
  return user

def setUserDisabled (admin : AuthenticatedUser) (targetUserId : String) (disabled : Bool)
    : Api AccountReply := do
  ExceptT.mk (return checkAdmin admin targetUserId "You cannot disable your own account.")
  setDisabledFlag targetUserId disabled
  if disabled then
    let _ ← attempt (invalidateUserSessions targetUserId)
    ExceptT.lift (evictUser targetUserId "account_disabled")
  return .user (← confirmedUser targetUserId)

def setUserBanned (admin : AuthenticatedUser) (targetUserId : String) (banned : Bool)
    : Api AccountReply := do
  ExceptT.mk (return checkAdmin admin targetUserId "You cannot ban your own account.")
  setBannedFlag targetUserId banned
  if banned then
    let _ ← attempt (invalidateUserSessions targetUserId)
    ExceptT.lift (evictUser targetUserId "account_banned")
  return .user (← confirmedUser targetUserId)

def deleteUserAccount (admin : AuthenticatedUser) (targetUserId : String) : Api AccountReply := do
  ExceptT.mk (return checkAdmin admin targetUserId "You cannot delete your own account.")
  AccountDatabase.deleteUserAccount targetUserId
  ExceptT.lift (disconnectUserSessions targetUserId "Account deleted.")
  return .done

def purgeAccounts (admin : AuthenticatedUser) (filter : PurgeFilter) : Api AccountReply := do
  if !admin.admin then
    throw (.forbidden "Admin only.")
  return .purged (← AccountDatabase.purgeAccounts x filter)

end Admin

end Lqxp
