import Lqxp.Core.Database

/-!
This module contains what the handlers of the protocol share: replies, the checks of room ids and of
sessions, the roles of a room and the rosters of a room.
-/

namespace Lqxp

section Replies

def requestId (d : Json) : Option String := (d.getStr? "requestId").map (Text.takeChars 128)

def withRequestId (payload : Json) (reqId : Option String) : Json :=
  match reqId with
  | none => payload
  | some reqId =>
    let d := (payload.get? "d").filter Json.isObject |>.getD (.obj [])
    payload.insert "d" (d.insert "requestId" (.str reqId))

def message (op : Nat) (d : List (String × Json)) : Json := .obj [("op", .int op), ("d", .obj d)]

theorem get?_op_message (op : Nat) (d : List (String × Json)) : (message op d).get? "op" = some (.int op) := rfl

theorem get?_d_message (op : Nat) (d : List (String × Json)) : (message op d).get? "d" = some (.obj d) := rfl

/--
Whether a payload is the positive answer to a request with the given operation code.
-/
def isOk (op : Nat) (payload : Json) : Bool :=
  match payload.get? "op", (payload.get? "d").bind (·.getBool? "ok") with
  | some (.int n), some ok => n = op && ok
  | _, _ => false

def respondError (sid : String) (op : Nat) (text : String) (reqId : Option String) : Proto Bool := do
  respondToSender sid (withRequestId (message op [("error", .str text)]) reqId)
  return false

def respondOk (sid : String) (op : Nat) (d : List (String × Json)) (reqId : Option String)
    : Proto Bool := do
  respondToSender sid (withRequestId (message op (("ok", .bool true) :: d)) reqId)
  return false

end Replies

def minRoomIdLen : Nat := 8

def maxRoomIdLen : Nat := 64

def validateRoomId (roomId : String) : Except String Unit :=
  if Text.len roomId < minRoomIdLen then
    .error "Room name must be at least 8 characters"
  else if maxRoomIdLen < Text.len roomId then
    .error "Room name must be at most 64 characters"
  else if !roomId.toList.all Text.isAsciiAlphanumeric then
    .error "Room name must be alphanumeric"
  else
    .ok ()

section Sessions

def sessionIdentity (sid : String) : Proto (Option (String × String)) := do
  let some player ← getPlayer sid
    | return none
  if player.userId = "" || player.username = "" then
    return none
  else
    return some (player.userId, player.username)

/--
The session with the given id, once it is identified.
-/
def identifiedPlayer (sid : String) : Proto (Option PlayerSession) := do
  let player ← getPlayer sid
  return player.filter (·.username ≠ "")

/--
The room a request is about: the one it names, or some room of the session.
-/
def resolveRoomForSession (sid : String) (requestedRoom : Option String)
    : Proto (Except String String) :=
  look fun e s =>
    match s.players.lookup sid with
    | none => .error "You need to be identified before"
    | some player =>
      if player.username = "" then
        .error "You need to be identified before"
      else
        match (requestedRoom.map Text.trim).filter (· ≠ "") with
        | some room =>
          match validateRoomId room with
          | .error text => .error text
          | .ok () => if player.rooms.contains room then .ok room else .error "Not a member of this room"
        | none =>
          match pickFrom e player.rooms with
          | some room => .ok room
          | none => .error "Not a member of any room"

/--
The account a moderation request is aimed at, with a name for it.
-/
def resolveTarget (d : Json) : Proto (Except String (String × String)) :=
  .atom fun e s =>
    match ((d.getStr? "targetUserId").map Text.trim).filter (· ≠ "") with
    | some userId =>
      let player := pickFrom e (s.players.values.filter (·.userId = userId))
      (.ok (userId, (player.map (·.username)).getD ""), .target userId, s)
    | none =>
      match ((d.getStr? "targetUsername").map Text.trim).filter (· ≠ "") with
      | some name =>
        match pickFrom e (s.players.values.filter fun p => Text.eqIgnoreAsciiCase p.username name) with
        | some player => (.ok (player.userId, player.username), .target player.userId, s)
        | none => (.error "Unknown target user", .quiet, s)
      | none => (.error "Missing target user", .quiet, s)

end Sessions

section Roles

def roleInRoom (room : RoomRecord) (userId : String) : RoomRole :=
  if room.ownerId = some userId then .administrator else (room.roles.lookup userId).getD .member

def roleToStr : RoomRole → String
  | .member => "member"
  | .moderator => "moderator"
  | .subAdministrator => "subAdmin"
  | .administrator => "administrator"

def roleFromStr (value : String) : Option RoomRole :=
  match Text.toAsciiLower (Text.trim value) with
  | "member" => some .member
  | "moderator" => some .moderator
  | "subadmin" | "sub-admin" | "subadministrator" => some .subAdministrator
  | "administrator" | "admin" => some .administrator
  | _ => none

def countRole (room : RoomRecord) (role : RoomRole) : Nat := room.roles.values.count role

def canSpeak (room : RoomRecord) (userId : String) (now : Nat) : Bool :=
  if (room.banned.lookup userId).isSome then
    false
  else if (room.timeouts.lookup userId).any (now < ·) then
    false
  else if room.chatLocked then
    let role := roleInRoom room userId
    role = .administrator || role = .subAdministrator
  else
    true

inductive ModAction where
  | ban
  | kick
  | mute
  deriving DecidableEq

def canModerate (room : RoomRecord) (actor target : RoomRole) (action : ModAction) : Bool :=
  match actor with
  | .administrator => true
  | .subAdministrator => target ≠ .administrator
  | .moderator =>
    if target ≠ .member then
      false
    else
      match action with
      | .ban => room.modPermissions.canBan
      | .kick => room.modPermissions.canKick
      | .mute => room.modPermissions.canMute
  | .member => false

end Roles

section Rosters

def isReservedSystemUsername (username : String) : Bool :=
  Text.eqIgnoreAsciiCase (Text.trim username) "system"

def isVisibleTo (player : PlayerSession) (viewer : Option String) : Bool :=
  !isReservedSystemUsername player.username
    && (player.status ≠ .invisible || viewer = some player.id)

def visiblePlayers (players : AssocMap String PlayerSession) (gameId : String)
    (viewer : Option String) : List PlayerSession :=
  players.values.filter fun player => player.rooms.contains gameId && isVisibleTo player viewer

def sanitizePlatform (value : Option String) : String :=
  let value := Text.toAsciiLower (Text.trim (value.getD ""))
  if ["android", "ios", "mobile", "desktop"].contains value then value else "web"

def callMediaJson (audio camera screen : Bool) : Json :=
  .obj [("audio", .bool audio), ("camera", .bool camera), ("screen", .bool screen)]

def rosterEntry (player : PlayerSession) : Json :=
  .obj [("user", .str player.username), ("id", .str player.userId), ("userId", .str player.userId),
    ("uuid", .str player.userId), ("clientId", .str player.clientId),
    ("platform", .str player.platform), ("status", player.status.toJson),
    ("profile", player.profile.toJson), ("badges", .arr (player.badges.map .str))]

def callRosterEntry (player : PlayerSession) : Json :=
  .obj [("user", .str player.username), ("isVoiceChat", .bool player.isVoiceChat),
    ("clientId", .str player.clientId), ("platform", .str player.platform),
    ("media", callMediaJson player.isVoiceChat player.callCamera player.callScreen),
    ("deafened", .bool player.callDeafened), ("status", player.status.toJson)]

/--
The platforms of each user, every one once, in the order in which they are met.
-/
def platformsByUser (players : List PlayerSession) : List (String × List String) :=
  players.foldl (fun entries player =>
    let platform := sanitizePlatform (some player.platform)
    let known := (entries.lookup player.username).getD []
    let platforms := if known.contains platform then known else known ++ [platform]
    entries.filter (·.1 ≠ player.username) ++ [(player.username, platforms)]) []

def roomUsernames (gameId : String) (viewer : Option String) : Proto (List String) :=
  look fun _ s => (visiblePlayers s.players gameId viewer).map (·.username)

/--
The six roster fields of a message about a room, in one look.
-/
def roomRosters (gameId : String) (viewer : Option String) : Proto (List (String × Json)) :=
  look fun _ s =>
    let visible := visiblePlayers s.players gameId viewer
    let calling := visible.filter (·.isCallInRoom gameId)
    let byName (value : PlayerSession → Json) : Json :=
      visible.foldl (fun fields player => fields.insert player.username (value player)) (.obj [])
    [("players", .arr (visible.map rosterEntry)),
      ("profiles", byName (·.profile.toJson)),
      ("statuses", byName (·.status.toJson)),
      ("platforms", .obj ((platformsByUser visible).map fun x => (x.1, .arr (x.2.map .str)))),
      ("voicePlayers", .arr (calling.map (.str ·.username))),
      ("callPlayers", .arr (calling.map callRosterEntry))]

end Rosters

/--
Refresh the members of a stored record from the sessions. `none` when the record cannot be written.
-/
def syncRoomRecord (roomId : String) : Proto (Option RoomRecord) := do
  let usernames ← roomUsernames roomId none
  let previous ← roomRecord roomId
  let room := previous.getD (defaultRecord roomId)
  let title := if Text.trim room.title = "" then roomId else room.title
  let room := { room with title, members := usernames }
  if ← setRoomRecord roomId room then return some room else return none

end Lqxp
