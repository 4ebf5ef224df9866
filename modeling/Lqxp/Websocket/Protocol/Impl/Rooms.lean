import Lqxp.Websocket.Protocol.Impl.Sessions

/-!
This module contains the handlers that create rooms, change their records and delete them.
-/

namespace Lqxp

def maxRoomDescriptionChars : Nat := 140

def maxRoomModerators : Nat := 5

def maxRoomSubAdmins : Nat := 3

def minTimeoutSecs : Nat := 60

def maxTimeoutSecs : Nat := 7 * 24 * 60 * 60

section Announcements

def broadcastRoomRecordToMembers (roomId : String) (op : Nat) (reqId : Option String)
    (room : RoomRecord) : Proto Unit :=
  broadcastToRoom roomId <| withRequestId (message op
    [("ok", .bool true), ("system", .bool true), ("gameId", .str roomId), ("room", room.toJson)]) reqId

def broadcastMemberRemoved (roomId targetUsername : String) (room : RoomRecord) : Proto Unit := do
  let rosters ← roomRosters roomId none
  broadcastToRoom roomId <| message 4 <|
    [("gameId", .str roomId), ("left", .str targetUsername)] ++ rosters ++ [("room", room.toJson)]

/--
Send a changed record to the room and confirm the change to the sender.
-/
def announceRoom (sid : String) (op : Nat) (roomId : String) (room : RoomRecord)
    (reqId : Option String) : Proto Bool := do
  broadcastRoomRecordToMembers roomId op reqId room
  respondOk sid op [("gameId", .str roomId), ("room", room.toJson)] reqId

/--
Write a changed record back, and announce what is stored then.
-/
def saveRoom (sid : String) (op : Nat) (failure roomId : String) (room : RoomRecord)
    (reqId : Option String) : Proto Bool := do
  if ← setRoomRecord roomId room then
    let stored ← roomRecord roomId
    announceRoom sid op roomId (stored.getD room) reqId
  else
    respondError sid op failure reqId

end Announcements

/--
What the operations on community rooms have in common: `body` gets the account of the sender, the room
and its record.
-/
def communityRequest (op : Nat) (key : String) (limit windowMs : Nat) (notCommunity sid : String)
    (d : Json) (body : String × String → String → RoomRecord → Proto Bool) : Proto Bool := do
  let reqId := requestId d
  if ← hitRateLimit (key ++ ":session:" ++ sid) limit windowMs then
    respondError sid op "Rate limit exceeded" reqId
  else do
  let some actor ← sessionIdentity sid
    | respondError sid op "You need to be identified before" reqId
  match ← resolveRoomForSession sid (d.getStr? "gameId") with
  | .error text => respondError sid op text reqId
  | .ok roomId =>
  let some room ← roomRecord roomId
    | respondError sid op "Unknown room" reqId
  if room.kind ≠ .community then
    respondError sid op notCommunity reqId
  else
    body actor roomId room

/--
Go on with the account that a request is aimed at.
-/
def withTarget (sid : String) (op : Nat) (d : Json) (body : String → String → Proto Bool)
    : Proto Bool := do
  match ← resolveTarget d with
  | .error text => respondError sid op text (requestId d)
  | .ok (targetId, targetName) => body targetId targetName

/--
Whether an account may change the settings of a community room.
-/
def isRoomAdmin (room : RoomRecord) (userId : String) : Bool :=
  let role := roleInRoom room userId
  role = .administrator || role = .subAdministrator

section Settings

/--
Write the record of a community room back with one setting changed.
-/
def changeSetting (op : Nat) (key : String) (limit windowMs : Nat) (notAllowed failure sid : String)
    (d : Json) (change : RoomRecord → RoomRecord) : Proto Bool :=
  communityRequest op key limit windowMs "Not a community room" sid d fun actor roomId room =>
    if !isRoomAdmin room actor.1 then
      respondError sid op notAllowed (requestId d)
    else
      saveRoom sid op failure roomId (change room) (requestId d)

def setChatLock (sid : String) (d : Json) : Proto Bool :=
  changeSetting 48 "chat_lock" 10 30000 "You are not allowed to change chat mode"
    "Failed to persist chat lock" sid d fun room =>
      { room with chatLocked := (d.getBool? "locked").getD false }

def setCallsEnabled (sid : String) (d : Json) : Proto Bool :=
  changeSetting 50 "calls_enabled" 10 30000 "You are not allowed to change call mode"
    "Failed to persist call mode" sid d fun room =>
      { room with callsEnabled := (d.getBool? "enabled").getD true }

def setModeratorPermissions (sid : String) (d : Json) : Proto Bool :=
  communityRequest 49 "mod_perms" 10 30000 "Not a community room" sid d fun actor roomId room => do
    if !isRoomAdmin room actor.1 then
      respondError sid 49 "Only administrators can configure moderator permissions" (requestId d)
    else do
    let some modPermissions := parseModPermissions (d.get? "modPermissions")
      | respondError sid 49 "Invalid permissions payload" (requestId d)
    saveRoom sid 49 "Failed to persist permissions" roomId { room with modPermissions } (requestId d)

/--
The changed record is announced as it was written, not as it is stored.
-/
def updateRoomDescription (sid : String) (d : Json) : Proto Bool :=
  communityRequest 41 "room_desc" 5 30000 "Not available for classic rooms" sid d
    fun actor roomId room => do
      if !isRoomAdmin room actor.1 then
        respondError sid 41 "You are not allowed to change this room" (requestId d)
      else do
      let description := Text.trim ((d.getStr? "description").getD "")
      let room := { room with description := Text.takeChars maxRoomDescriptionChars description }
      if ← setRoomRecord roomId room then
        announceRoom sid 41 roomId room (requestId d)
      else
        respondError sid 41 "Failed to persist description" (requestId d)

/--
The account of a session, empty as long as there is none.
-/
def accountOf (sid : String) : Proto String := do
  let player ← getPlayer sid
  return (player.map (·.userId)).getD ""

/--
The checks of the operations that rooms of every kind have. `body` gets the room.
-/
def changeRoom (op : Nat) (key : String) (limit windowMs : Nat) (limited sid : String) (d : Json)
    (body : String → Proto Bool) : Proto Bool := do
  let reqId := requestId d
  let userId ← accountOf sid
  let rateKey := if userId = "" then key ++ ":session:" ++ sid else key ++ ":user:" ++ userId
  if ← hitRateLimit rateKey limit windowMs then
    respondError sid op limited reqId
  else do
  match ← resolveRoomForSession sid (d.getStr? "gameId") with
  | .error text => respondError sid op text reqId
  | .ok roomId =>
  let room ← roomRecord roomId
  if room.any fun room => room.kind = .community && !isRoomAdmin room userId then
    respondError sid op "You are not allowed to change this room" reqId
  else
    body roomId

def roomTitle (d : Json) (roomId : String) : String :=
  ((trimmedStr? d "title").map (Text.takeChars 64)).getD roomId

def updateRoomTitle (sid : String) (d : Json) : Proto Bool :=
  changeRoom 33 "room_title" 5 30000 "Rate limit exceeded. Please wait." sid d fun roomId => do
    let some room ← syncRoomRecord roomId
      | respondError sid 33 "Failed to persist room title" (requestId d)
    let room := { room with title := roomTitle d roomId }
    if ← setRoomRecord roomId room then
      announceRoom sid 33 roomId room (requestId d)
    else
      respondError sid 33 "Failed to persist room title" (requestId d)

/--
The part of an icon upload that follows the parsing and storing of the file.
-/
def finishRoomIcon (sid : String) (d : Json) (roomId : String)
    : Except String (Option RoomIcon) → Proto Bool
  | .error text => respondError sid 32 text (requestId d)
  | .ok none => respondError sid 32 "Missing file" (requestId d)
  | .ok (some icon) => do
    if ← setRoomIcon roomId icon then
      let _ ← syncRoomRecord roomId
      let stored ← roomRecord roomId
      let members ← roomUsernames roomId (some sid)
      let room := stored.getD { defaultRecord roomId with icon := some icon, members }
      broadcastRoomRecordToMembers roomId 32 (requestId d) room
      respondOk sid 32
        [("gameId", .str roomId), ("icon", icon.toJson), ("room", room.toJson)] (requestId d)
    else
      respondError sid 32 "Failed to persist icon" (requestId d)

def uploadRoomIcon (sid : String) (d : Json) : Proto Bool :=
  changeRoom 32 "room_icon" 3 60000 "Rate limit exceeded. Please wait a minute." sid d
    fun roomId => do
      let icon ← storeRoomIconFromPayload d roomId
      finishRoomIcon sid d roomId icon

end Settings

section Members

def setMemberRole (sid : String) (d : Json) : Proto Bool :=
  communityRequest 42 "set_role" 10 30000 "Not a community room" sid d fun actor roomId room => do
    let reqId := requestId d
    if !isRoomAdmin room actor.1 then
      respondError sid 42 "Only administrators can manage roles" reqId
    else do
    let some newRole := (d.getStr? "role").bind roleFromStr
      | respondError sid 42 "Invalid role" reqId
    if newRole = .administrator then
      respondError sid 42 "Use transfer ownership" reqId
    else
    withTarget sid 42 d fun targetId _ =>
      let currentRole := roleInRoom room targetId
      if targetId = actor.1 then
        respondError sid 42 "You cannot change your own role" reqId
      else if currentRole = .administrator then
        respondError sid 42 "Cannot change the administrator's role" reqId
      else if newRole = .moderator && currentRole ≠ .moderator
          && maxRoomModerators ≤ countRole room .moderator then
        respondError sid 42 "Moderator limit reached (5 max)" reqId
      else if newRole = .subAdministrator && currentRole ≠ .subAdministrator
          && maxRoomSubAdmins ≤ countRole room .subAdministrator then
        respondError sid 42 "Sub-administrator limit reached (3 max)" reqId
      else
        let roles :=
          if newRole = .member then room.roles.erase targetId else room.roles.insert targetId newRole
        saveRoom sid 42 "Failed to persist role" roomId { room with roles } reqId

def transferOwnership (sid : String) (d : Json) : Proto Bool :=
  communityRequest 47 "transfer" 5 60000 "Not a community room" sid d fun actor roomId room =>
    let reqId := requestId d
    if room.ownerId ≠ some actor.1 then
      respondError sid 47 "Only the owner can transfer the room" reqId
    else
    withTarget sid 47 d fun targetId _ =>
      let targetRole := roleInRoom room targetId
      if targetRole ≠ .moderator && targetRole ≠ .subAdministrator then
        respondError sid 47 "The new owner must be a moderator or sub-administrator" reqId
      else if targetRole ≠ .subAdministrator
          && maxRoomSubAdmins ≤ countRole room .subAdministrator then
        respondError sid 47 "No sub-administrator slot available for the current owner" reqId
      else
        let roles := (room.roles.insert targetId .administrator).insert actor.1 .subAdministrator
        saveRoom sid 47 "Failed to persist transfer" roomId
          { room with ownerId := some targetId, roles } reqId

/--
Go on if the sender may use its power as `action` on the account that the request is aimed at.
-/
def moderate (sid : String) (op : Nat) (d : Json) (action : ModAction) (actorId : String)
    (room : RoomRecord) (notSelf : Bool) (notAllowed : String) (body : String → String → Proto Bool)
    : Proto Bool :=
  withTarget sid op d fun targetId targetName =>
    if notSelf && targetId = actorId then
      respondError sid op "You cannot target yourself" (requestId d)
    else if !canModerate room (roleInRoom room actorId) (roleInRoom room targetId) action then
      respondError sid op notAllowed (requestId d)
    else
      body targetId targetName

def removeUserFromRoom (roomId userId reason : String) : Proto Unit := do
  let removed ← .atom fun _ s =>
    let inRoom := s.players.values.filter fun player =>
      player.userId = userId && player.rooms.contains roomId
    let players := s.players.mapValues fun _ player =>
      if player.userId = userId then player.exit roomId else player
    (inRoom.map (·.id), .removed userId roomId, { s with players })
  .atom fun _ s => ((), .broadcast removed (message 4 [("ok", .bool true), ("gameId", .str roomId),
    ("removed", .bool true), ("reason", .str reason)]), s)

/--
Take an account out of a room, refresh the record and announce the removal.
-/
def evictMember (sid : String) (op : Nat) (roomId targetId targetName reason : String)
    (room : RoomRecord) (reqId : Option String) : Proto Bool := do
  removeUserFromRoom roomId targetId reason
  let _ ← syncRoomRecord roomId
  let stored ← roomRecord roomId
  let room := stored.getD room
  broadcastMemberRemoved roomId targetName room
  respondOk sid op [("gameId", .str roomId), ("room", room.toJson)] reqId

def banMember (sid : String) (d : Json) : Proto Bool :=
  communityRequest 43 "ban" 10 30000 "Not a community room" sid d fun actor roomId room =>
    moderate sid 43 d .ban actor.1 room true "You are not allowed to ban this member"
      fun targetId targetName => do
        let room := { room with banned := room.banned.insert targetId targetName }
        if ← setRoomRecord roomId room then
          evictMember sid 43 roomId targetId targetName "banned" room (requestId d)
        else
          respondError sid 43 "Failed to persist ban" (requestId d)

def kickMember (sid : String) (d : Json) : Proto Bool :=
  communityRequest 45 "kick" 10 30000 "Not a community room" sid d fun actor roomId room =>
    moderate sid 45 d .kick actor.1 room true "You are not allowed to kick this member"
      fun targetId targetName =>
        evictMember sid 45 roomId targetId targetName "kicked" room (requestId d)

def unbanMember (sid : String) (d : Json) : Proto Bool :=
  communityRequest 44 "unban" 10 30000 "Not a community room" sid d fun actor roomId room =>
    if !isRoomAdmin room actor.1 then
      respondError sid 44 "You are not allowed to unban" (requestId d)
    else
    withTarget sid 44 d fun targetId _ =>
      saveRoom sid 44 "Failed to persist unban" roomId
        { room with banned := room.banned.erase targetId } (requestId d)

def timeoutSecs (d : Json) : Nat :=
  let seconds := ((d.get? "durationSecs").or (d.get? "duration")).bind Json.asU64?
  max minTimeoutSecs (min (seconds.getD minTimeoutSecs) maxTimeoutSecs)

def timeoutMember (sid : String) (d : Json) : Proto Bool :=
  communityRequest 46 "timeout" 10 30000 "Not a community room" sid d fun actor roomId room =>
    moderate sid 46 d .mute actor.1 room true "You are not allowed to mute this member"
      fun targetId _ => do
        let now ← nowMs
        let timeouts := room.timeouts.insert targetId (now + timeoutSecs d * 1000)
        saveRoom sid 46 "Failed to persist timeout" roomId { room with timeouts } (requestId d)

/--
Unlike the sanctions, this one may be aimed at the sender itself.
-/
def unmuteMember (sid : String) (d : Json) : Proto Bool :=
  communityRequest 52 "unmute" 10 30000 "Not a community room" sid d fun actor roomId room =>
    moderate sid 52 d .mute actor.1 room false "You are not allowed to unmute this member"
      fun targetId _ =>
        saveRoom sid 52 "Failed to persist unmute" roomId
          { room with timeouts := room.timeouts.erase targetId } (requestId d)

end Members

section Existence

def newRoom (d : Json) (roomId userId : String) : RoomRecord :=
  let description := Text.trim ((d.getStr? "description").getD "")
  { roomId, title := roomTitle d roomId, kind := .community,
    description := Text.takeChars maxRoomDescriptionChars description, ownerId := some userId,
    roles := (∅ : AssocMap String RoomRole).insert userId .administrator,
    modPermissions := (parseModPermissions (d.get? "modPermissions")).getD {} }

def finishNewRoomIcon (roomId : String) (room : RoomRecord)
    : Except String (Option RoomIcon) → Proto RoomRecord
  | .ok (some icon) => do
    let _ ← setRoomRecord roomId { room with icon := some icon }
    return { room with icon := some icon }
  | _ => return room

/--
Store the icon that comes with a new room and add it to the record. Nobody hears of a failure.
-/
def attachRoomIcon (d : Json) (roomId : String) (room : RoomRecord) : Proto RoomRecord := do
  let icon ← storeRoomIconFromPayload d roomId
  finishNewRoomIcon roomId room icon

def createRoom (sid : String) (d : Json) : Proto Bool := do
  let reqId := requestId d
  if ← hitRateLimit ("create_room:session:" ++ sid) 5 60000 then
    respondError sid 40 "Create room rate limit exceeded" reqId
  else do
  let some (userId, _) ← sessionIdentity sid
    | respondError sid 40 "You need to be identified before" reqId
  let requested := ((d.get? "roomId").or (d.get? "gameId")).bind Json.asStr?
  let some roomId := (requested.map Text.trim).filter (· ≠ "")
    | respondError sid 40 "Missing roomId" reqId
  match validateRoomId roomId with
  | .error text => respondError sid 40 text reqId
  | .ok () =>
  let kind := ((d.getStr? "kind").map Text.trim).getD "community"
  if kind = "classic" then
    respondError sid 40 "Classic rooms are created locally" reqId
  else if kind ≠ "community" then
    respondError sid 40 "Invalid room kind" reqId
  else do
  let room := newRoom d roomId userId
  let existing ← roomRecord roomId
  if existing.isSome then
    respondError sid 40 "This room name is already taken" reqId
  else do
  match ← createRoomIfAbsent roomId room with
  | none => respondError sid 40 "Failed to persist room" reqId
  | some false => respondError sid 40 "This room name is already taken" reqId
  | some true =>
  let room ← attachRoomIcon d roomId room
  let stored ← roomRecord roomId
  respondOk sid 40
    [("gameId", .str roomId), ("room", (stored.getD room).toJson), ("myRole", .str "administrator")]
    reqId

/--
Drop the buffered messages of a room and take everybody out of it.
-/
def emptyRoom (roomId : String) : Proto (List String) :=
  .atom fun _ s =>
    let inRoom := s.players.values.filter fun player => player.rooms.contains roomId
    let players := s.players.mapValues fun _ player => player.exit roomId
    (inRoom.map (·.id), .emptied roomId,
      { s with players, roomMessages := s.roomMessages.erase roomId })

def deleteRoomOp (sid : String) (d : Json) : Proto Bool :=
  communityRequest 57 "delete_room" 5 60000 "Not a community room" sid d fun actor roomId room => do
    let isServerAdmin ← look fun _ s => ((s.players.lookup sid).map (·.isAdmin)).getD false
    if room.ownerId ≠ some actor.1 && !isServerAdmin then
      respondError sid 57 "Only the room owner can delete it" (requestId d)
    else do
    removeIconFile room.icon
    if ← deleteRoom roomId then
      let members ← emptyRoom roomId
      .atom fun _ s => ((), .broadcast members (message 58 [("gameId", .str roomId),
        ("deleted", .bool true), ("by", .str actor.2)]), s)
      respondOk sid 57 [("gameId", .str roomId)] (requestId d)
    else
      respondError sid 57 "Failed to delete room" (requestId d)

end Existence

end Lqxp
