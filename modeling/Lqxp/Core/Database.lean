import Lqxp.Core.Presence

/-!
This module contains the statements on the room and account tables, each one atomic step.
-/

namespace Lqxp

section RoomDatabase

/--
What a query for the record of a room gives: a failed query and a missing row are the same.
-/
def Env.readRoom (e : Env) (s : AppState) (roomId : String) : Option RoomRecord :=
  if e.dbFails then none else s.database.lookup roomId

def roomRecord (roomId : String) : Proto (Option RoomRecord) :=
  .atom fun e s => (e.readRoom s roomId, .read roomId (e.readRoom s roomId), s)

def setRoomRecord (roomId : String) (room : RoomRecord) : Proto Bool :=
  .atom fun e s =>
    if e.dbFails then
      (false, .quiet, s)
    else
      let record := { room with roomId }
      (true, .wrote roomId record, { s with database := s.database.insert roomId record })

/--
Insert a record unless the room has one; `none` when the statement fails.
-/
def createRoomIfAbsent (roomId : String) (room : RoomRecord) : Proto (Option Bool) :=
  .atom fun e s =>
    if e.dbFails then
      (none, .quiet, s)
    else
      match s.database.lookup roomId with
      | some _ => (some false, .quiet, s)
      | none =>
        let record := { room with roomId }
        (some true, .created roomId record, { s with database := s.database.insert roomId record })

def deleteRoom (roomId : String) : Proto Bool :=
  .atom fun e s =>
    if e.dbFails then
      (false, .quiet, s)
    else
      (true, .erased roomId, { s with database := s.database.erase roomId })

def roomIcon (roomId : String) : Proto (Option RoomIcon) := do
  let room ← roomRecord roomId
  return room.bind (·.icon)

/--
The record that stands for a room without a row.
-/
def defaultRecord (roomId : String) : RoomRecord := { roomId, title := roomId }

def setRoomIcon (roomId : String) (icon : RoomIcon) : Proto Bool := do
  let room ← roomRecord roomId
  setRoomRecord roomId { room.getD (defaultRecord roomId) with icon := some icon }

end RoomDatabase

section AccountDatabase

structure AuthenticatedUser where
  id : String
  username : String
  profile : UserProfile
  status : UserPresenceStatus
  disabled : Bool
  banned : Bool
  admin : Bool
  badges : List String
  customBadges : List String
  createdAt : Nat

namespace AccountDatabase

/--
The position of a user in the order of registration, starting with 1.
-/
def userRank (db : AccountDatabase) (user : StoredUser) : Nat :=
  1 + (db.users.values.filter fun other =>
    other.createdAt < user.createdAt || (other.createdAt = user.createdAt && other.id < user.id)).length

def isAdmin (db : AccountDatabase) (userId : String) : Bool := db.adminIds.contains userId

def userBadges (db : AccountDatabase) (user : StoredUser) : List String :=
  let badges := if db.isAdmin user.id then ["admin"] else []
  let badges := if db.userRank user ≤ 200 then badges ++ ["early"] else badges
  user.customBadges.foldl
    (fun badges badge => if badges.contains badge then badges else badges ++ [badge]) badges

def authenticatedUser (db : AccountDatabase) (user : StoredUser) : AuthenticatedUser :=
  { id := user.id, username := user.username, profile := user.profile, status := user.status,
    disabled := user.disabled, banned := user.banned, admin := db.isAdmin user.id,
    badges := db.userBadges user, customBadges := user.customBadges, createdAt := user.createdAt }

end AccountDatabase

/--
The user of a session that has not expired; `none` when the statement fails.
-/
def sessionUserId (token : String) : Proto (Option (Option String)) :=
  .atom fun e s =>
    if e.dbFails then
      (none, .quiet, s)
    else
      let tokenHash := s.accounts.tokenHash token
      match s.accounts.sessions.lookup tokenHash with
      | some row =>
        if e.now < row.expiresAt then
          (some (some row.userId), .token tokenHash row.userId, s)
        else
          (some none, .quiet, s)
      | none => (some none, .quiet, s)

def userById (userId : String) : Proto (Option (Option AuthenticatedUser)) :=
  .atom fun e s =>
    if e.dbFails then
      (none, .quiet, s)
    else
      match s.accounts.users.lookup userId with
      | some user =>
        let label := if user.disabled || user.banned then .quiet else .account user.id
        (some (some (s.accounts.authenticatedUser user)), label, s)
      | none => (some none, .quiet, s)

def authenticateToken (token : String) : Proto (Option (Option AuthenticatedUser)) := do
  match ← sessionUserId token with
  | none => return none
  | some none => return some none
  | some (some userId) =>
    match ← userById userId with
    | none => return none
    | some none => return some none
    | some (some user) =>
      if user.disabled || user.banned then
        return some none
      else
        return some (some user)

def updateStatus (userId : String) (status : UserPresenceStatus) : Proto Bool :=
  .atom fun e s =>
    if e.dbFails then
      (false, .quiet, s)
    else
      let users := s.accounts.users.modify userId fun user => { user with status }
      (true, .quiet, { s with accounts := { s.accounts with users } })

def updateProfile (userId : String) (profile : UserProfile) : Proto Bool :=
  .atom fun e s =>
    if e.dbFails then
      (false, .quiet, s)
    else
      let users := s.accounts.users.modify userId fun user => { user with profile }
      (true, .quiet, { s with accounts := { s.accounts with users } })

/--
The feature flag for calls. A failed query counts as enabled.
-/
def callsEnabledFlag : Proto Bool := look fun e s => e.dbFails || s.callsEnabled

def getDefaultRoom : Proto (Option DefaultRoom) :=
  look fun e s => if e.dbFails then none else s.accounts.defaultRoom

/--
The profiles of the given users, in one look; `none` when a statement fails.
-/
def profilesByUsernames (usernames : List String) : Proto (Option (List (String × UserProfile))) :=
  look fun e s =>
    if e.dbFails then
      none
    else
      some <| usernames.filterMap fun username =>
        (s.accounts.users.values.find? (·.username = username)).map fun user =>
          (user.username, user.profile)

end AccountDatabase

end Lqxp
