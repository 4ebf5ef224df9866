import Lqxp.Services.Admin
import Lqxp.Services.User.Upload
import Lqxp.Websocket.Protocol.Impl.PublicProfiles

/-!
This module contains the services that change what the public profiles show, with what they drop from the cache,
and the routes that lead to them.
-/

namespace Lqxp

variable (x : Externals)

def maxUserBadges : Nat := 16

def maxUserBadgeLen : Nat := 32

def reservedBadges : List String := ["admin", "staff", "system"]

def sanitizeBadge (badge : String) : String :=
  let kept := (x.toLowercase (Text.trim badge)).toList.filter fun c =>
    Text.isAsciiAlphanumeric c || c = '_' || c = '-'
  String.ofList (kept.take maxUserBadgeLen)

def sanitizeBadges : List String → List String → List String
  | [], cleaned => cleaned
  | badge :: badges, cleaned =>
    let sanitized := sanitizeBadge x badge
    if sanitized = "" || reservedBadges.contains sanitized || cleaned.contains sanitized then
      sanitizeBadges badges cleaned
    else if maxUserBadges ≤ cleaned.length + 1 then
      cleaned ++ [sanitized]
    else
      sanitizeBadges badges (cleaned ++ [sanitized])

def sanitizeCustomBadges (badges : List String) : List String := sanitizeBadges x badges []

namespace AccountDatabase

def updateCustomBadges (userId : String) (customBadges : List String) : ProfileApi Unit :=
  ExceptT.mk <| .atom fun e s =>
    if e.dbFails then
      (.error .internal, .quiet, s)
    else
      (.ok (), .badged userId customBadges,
        { s with account := s.account.updateUser userId fun user => { user with customBadges } })

def setUserBadges (userId : String) (badges : List String) : ProfileApi PublicUser := do
  updateCustomBadges userId (sanitizeCustomBadges x badges)
  match ← onApi (findUserById userId) with
  | some updated => return updated.publicUser
  | none => throw (.badRequest "Account not found.")

end AccountDatabase

section Announcements

/--
Give the sessions of an account its badges. The answer is these sessions and their rooms.
-/
def shareBadges (user : PublicUser) : Proto (List String × List String) :=
  .atom fun _ s =>
    let players := s.players.mapValues fun _ player =>
      if player.userId = user.id then { player with badges := user.badges } else player
    let shared := s.players.values.filter (·.userId = user.id)
    ((shared.map (·.id), (shared.flatMap (·.rooms)).dedup), .quiet, { s with players })

def badgeFields (user : PublicUser) : List (String × Json) :=
  [("user", .str user.username), ("username", .str user.username), ("userId", .str user.id),
    ("badges", .arr (user.badges.map .str))]

def announceBadgesAll (user : PublicUser) : List String → Proto Unit
  | [] => return ()
  | roomId :: rooms => do
    let players ← look fun _ s => (visiblePlayers s.players roomId none).map rosterEntry
    broadcastToRoom roomId <| message 34 <|
      [("ok", .bool true), ("gameId", .str roomId)] ++ badgeFields user ++ [("players", .arr players)]
    announceBadgesAll user rooms

def broadcastBadgeUpdate (user : PublicUser) : Proto Unit := do
  let (recipients, rooms) ← shareBadges user
  .atom fun _ s => ((), .broadcast recipients (message 34 (("ok", .bool true) :: badgeFields user)), s)
  announceBadgesAll user rooms

end Announcements

namespace Cached

/--
The sessions hear of the new image only after the cache has dropped the profile. They do not read the cache.
-/
def uploadProfileImage (user : AuthenticatedUser) (kind : String) (file : UploadedFile)
    : Profiles (Except String Json) := do
  match ← onSession none (Http.uploadProfileImage user kind file) with
  | .ok answer => do
    invalidatePublicProfileCache (some user.id) (some user.username)
    return .ok answer
  | .error text => return .error text

def changeUsername (user : AuthenticatedUser) (newUsername : String) : ProfileApi AccountReply := do
  match ← onApi (Auth.changeUsername x user newUsername) with
  | .user updated => do
    ExceptT.lift (invalidatePublicProfileCache (some user.id) (some user.username))
    ExceptT.lift (invalidatePublicProfileCache (some user.id) (some updated.username))
    return .user updated
  | reply => return reply

def deleteAccount (token password : String) : ProfileApi AccountReply := do
  match ← onApi (authenticate token) with
  | some user => do
    onApi (AccountDatabase.deleteAccount x token password)
    ExceptT.lift (onAccounts (disconnectUserSessions user.id "Account deleted."))
    ExceptT.lift (invalidatePublicProfileCache (some user.id) (some user.username))
    return .done
  | none => throw (.unauthorized "Not authenticated.")

def deleteUserAccount (admin : AuthenticatedUser) (targetUserId : String) : ProfileApi AccountReply := do
  let reply ← onApi (Admin.deleteUserAccount admin targetUserId)
  ExceptT.lift (invalidatePublicProfileCache (some targetUserId) none)
  return reply

def setUserBadges (admin : AuthenticatedUser) (targetUserId : String) (badges : List String)
    : ProfileApi AccountReply :=
  if !admin.admin then
    throw (.forbidden "Admin only.")
  else do
    let updated ← AccountDatabase.setUserBadges x targetUserId badges
    ExceptT.lift (onSession none (broadcastBadgeUpdate updated))
    ExceptT.lift (invalidatePublicProfileCache (some targetUserId) (some updated.username))
    return .user updated

end Cached

section Routes

def authenticatedUser (token : String) : ProfileApi AuthenticatedUser := do
  match ← onApi (authenticate token) with
  | some user => return user
  | none => throw (.unauthorized "Invalid session.")

def routeRateLimit (key : String) (limit windowMs : Nat) (text : String) : ProfileApi Unit := do
  if ← ExceptT.lift (onSession none (hitRateLimit key limit windowMs)) then
    throw (.tooManyRequests text)
  else
    return ()

def adminRateLimit (action adminId : String) (limit windowMs : Nat) : ProfileApi Unit :=
  routeRateLimit ("admin:" ++ action ++ ":user:" ++ adminId) limit windowMs
    "Too many administration requests. Please wait a moment."

inductive ProfileRequest where
  | lookup (sid : String) (d : Json)
  | settings (sid : String) (d : Json)
  | uploadImage (token kind : String) (file : UploadedFile)
  | changeUsername (token newUsername : String)
  | setUserBadges (token targetUserId : String) (badges : List String)
  | deleteAccount (token password : String)
  | deleteUserAccount (token targetUserId : String)
  | purgeAccounts (token : String) (filter : PurgeFilter)

namespace ProfileRequest

def api : ProfileRequest → ProfileApi Unit
  | .lookup sid d => do
    let _ ← ExceptT.lift (requestPublicProfiles x sid d)
  | .settings sid d => do
    let _ ← ExceptT.lift (onSession (some sid) (updateClientSettings sid d))
  | .uploadImage token kind file => do
    let user ← authenticatedUser token
    routeRateLimit ("profile_image:user:" ++ user.id) 5 60000
      "Too many profile image uploads. Please wait a minute."
    let _ ← ExceptT.lift (Cached.uploadProfileImage user kind file)
  | .changeUsername token newUsername => do
    let user ← authenticatedUser token
    routeRateLimit ("username_change:user:" ++ user.id) 3 (10 * 60 * 1000)
      "Too many username change requests. Please wait a few minutes."
    let _ ← Cached.changeUsername x user newUsername
  | .setUserBadges token targetUserId badges => do
    let admin ← authenticatedUser token
    adminRateLimit "users:badges" admin.id 60 60000
    let _ ← Cached.setUserBadges x admin targetUserId badges
  | .deleteAccount token password => do
    let _ ← Cached.deleteAccount x token password
  | .deleteUserAccount token targetUserId => do
    let admin ← authenticatedUser token
    adminRateLimit "users:delete" admin.id 10 60000
    let _ ← Cached.deleteUserAccount admin targetUserId
  | .purgeAccounts token filter => do
    let admin ← authenticatedUser token
    routeRateLimit ("admin:users:purge:user:" ++ admin.id) 5 (10 * 60 * 1000)
      "Purge rate limit exceeded. Please wait 10 minutes."
    let _ ← onApi (Admin.purgeAccounts x admin filter)

def handle (req : ProfileRequest) : Profiles Unit := do
  let _ ← (req.api x).run

end ProfileRequest

end Routes

end Lqxp
