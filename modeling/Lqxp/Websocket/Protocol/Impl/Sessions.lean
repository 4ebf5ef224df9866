import Lqxp.Websocket.Protocol.Impl.Messages

/-!
This module contains the life of a session: connecting, identifying, joining and leaving rooms, and
disconnecting.
-/

namespace Lqxp

def maxConcurrentSessions : Nat := 5000

def maxRoomsPerPlayer : Nat := 100

def registerConnection (sid : String) : Proto Bool :=
  .atom fun _ s =>
    if maxConcurrentSessions ≤ s.players.size then
      (false, .quiet, s)
    else
      (true, .connected sid, { s with players := s.players.insert sid { id := sid } })

section Identify

def parseUserStatus (raw : Json) : UserPresenceStatus :=
  match (raw.asStr?.map Text.trim).getD "" with
  | "invisible" => .invisible
  | "dnd" | "doNotDisturb" | "do_not_disturb" => .dnd
  | _ => .online

def sanitizeClientId (value : Option String) : String :=
  let kept := (Text.trim (value.getD "")).toList.filter fun c =>
    Text.isAsciiAlphanumeric c || c = '_' || c = '-'
  String.ofList (kept.take 48)

def DefaultRoom.toJson (room : DefaultRoom) : Json :=
  .obj [("roomId", .str room.roomId), ("roomKey", .str room.roomKey), ("title", .str room.title)]

/--
Tell the sessions of an account, except one, that another of its devices came or went.
-/
def broadcastSyncPeerEvent (userId event clientId platform : String) (exclude : Option String)
    : Proto Unit :=
  if Text.trim userId = "" || Text.trim clientId = "" then
    return ()
  else
    .atom fun _ s =>
      let recipients := s.players.values.filter fun player =>
        player.userId = userId && some player.id ≠ exclude
      let payload := message 63
        [("event", .str event), ("clientId", .str clientId), ("platform", .str platform)]
      ((), .broadcast (recipients.map (·.id)) payload, s)

/--
What identifying as an account makes of a session. The rooms of the session stay.
-/
def PlayerSession.identifyAs (account : AuthenticatedUser) (status : UserPresenceStatus) (d : Json)
    (now : Nat) (player : PlayerSession) : PlayerSession :=
  { player with
    userId := account.id
    isAdmin := account.admin
    badges := account.badges
    username := account.username
    isVoiceChat := (d.getBool? "isVoiceChat").getD false
    deleteMessagesOnLeave := (d.getBool? "deleteMessagesOnLeave").getD false
    version := (d.getStr? "v").getD "unknown"
    clientId := sanitizeClientId (d.getStr? "clientId")
    platform := sanitizePlatform (d.getStr? "platform")
    isMobile := d.getBool? "isMobile"
    isSecure := d.getBool? "isSecure"
    profile := account.profile
    status
    identifiedAtMs := now
    lastRevalidationMs := now }

/--
Bind a session to an account. The answer is the client id before and the session as it is now.
-/
def bindSession (sid : String) (account : AuthenticatedUser) (status : UserPresenceStatus) (d : Json)
    : Proto (Option (String × PlayerSession)) :=
  .atom fun e s =>
    match s.players.lookup sid with
    | none => (none, .quiet, s)
    | some player =>
      let identify := PlayerSession.identifyAs account status d e.now
      (some (player.clientId, identify player), .bound sid account.id,
        { s with players := s.players.modify sid identify })

/--
The part of identifying that follows the check of the token.
-/
def completeIdentify (sid : String) (d : Json) (account : AuthenticatedUser)
    (status : UserPresenceStatus) (reqId : Option String) : Proto Bool := do
  let some (prevClientId, player) ← bindSession sid account status d
    | return false
  let defaultRoom ← getDefaultRoom
  respondToSender sid <| withRequestId (message 2
    [("userId", .str player.userId), ("username", .str player.username),
      ("admin", .bool player.isAdmin), ("profile", player.profile.toJson),
      ("status", player.status.toJson), ("badges", .arr (account.badges.map .str)),
      ("defaultRoom", (defaultRoom.map DefaultRoom.toJson).getD .null)]) reqId
  if player.clientId ≠ "" && prevClientId ≠ player.clientId then
    broadcastSyncPeerEvent player.userId "join" player.clientId player.platform (some sid)
  return false

def identifyPlayer (sid : String) (d : Json) : Proto Bool := do
  let reqId := requestId d
  let token := ((d.get? "token").or (d.get? "authToken")).bind Json.asStr?
  let some token := (token.map Text.trim).filter (· ≠ "")
    | respondError sid 2 "Account session required" reqId
  match ← authenticateToken token with
  | none => respondError sid 2 "Authentication failed" reqId
  | some none => respondError sid 2 "Invalid account session" reqId
  | some (some account) =>
  let requested := (d.get? "status").or (d.get? "presenceStatus")
  let status := (requested.map parseUserStatus).getD account.status
  if status ≠ account.status then
    let _ ← updateStatus account.id status
    completeIdentify sid d account status reqId
  else
    completeIdentify sid d account status reqId

end Identify

section History

/--
The distinct authors of messages, in order, whose profiles the history comes with.
-/
def historyAuthors (messages : List ChatMessageRecord) : List String :=
  let names := messages.map fun message => Text.trim message.username
  let names := names.filter fun name => name ≠ "" && !isReservedSystemUsername name
  names.dedup.insertionSort (· ≤ ·)

def dispatchRoomHistory (sid roomId : String) (reqId : Option String) : Proto Unit := do
  let messages ← look fun _ s => s.messages roomId
  let profiles ← profilesByUsernames (historyAuthors messages)
  let profiles := (profiles.getD []).foldl
    (fun fields entry => fields.insert entry.1 entry.2.toJson) (.obj [])
  respondToSender sid <| withRequestId (message 18
    [("ok", .bool true), ("roomId", .str roomId),
      ("messages", .arr (messages.map ChatMessageRecord.toJson)), ("profiles", profiles)]) reqId

def sendRoomHistory (sid : String) (d : Json) : Proto Bool := do
  let reqId := requestId d
  if ← hitRateLimit ("room_history:session:" ++ sid) 150 10000 then
    respondError sid 18 "History request rate limit exceeded" reqId
  else do
  match ← resolveRoomForSession sid (d.getStr? "gameId") with
  | .error text => respondError sid 18 text reqId
  | .ok roomId =>
  dispatchRoomHistory sid roomId reqId
  return false

end History

section Rooms

/--
Enter a room. The answer is whether the session was in there already, its username and its account.
-/
def enterRoom (sid roomId : String) : Proto (Except String (Bool × String × String)) :=
  .atom fun _ s =>
    match s.players.lookup sid with
    | none => (.error "You need to be identified before", .quiet, s)
    | some player =>
      if player.username = "" then
        (.error "You need to be identified before", .quiet, s)
      else if !player.rooms.contains roomId && maxRoomsPerPlayer ≤ player.rooms.length then
        (.error "Maximum room limit reached (100 rooms max)", .quiet, s)
      else if player.rooms.contains roomId then
        (.ok (true, player.username, player.userId), .quiet, s)
      else
        (.ok (false, player.username, player.userId), .joined sid roomId player.userId,
          { s with players := s.players.modify sid (·.enter roomId) })

def exitRoom (sid roomId : String) : Proto Unit :=
  .atom fun _ s =>
    ((), .left sid roomId, { s with players := s.players.modify sid (·.exit roomId) })

/--
The stored record of a room or, without one, a record of who is in there.
-/
def recordOrRoster (roomId : String) (viewer : Option String) : Proto RoomRecord := do
  let room ← roomRecord roomId
  let members ← roomUsernames roomId viewer
  return room.getD { defaultRecord roomId with members }

/--
Whether a record keeps an account out of its room.
-/
def RoomRecord.bans (room : RoomRecord) (userId : String) : Bool :=
  room.kind = .community && (room.banned.lookup userId).isSome

def completeJoin (sid roomId username userId : String) (alreadyIn silentJoin : Bool)
    (reqId : Option String) : Proto Bool := do
  let status ← look fun _ s => (s.players.lookup sid).map (·.status)
  let room ← recordOrRoster roomId (some sid)
  let iconUrl := (room.icon.map (·.file.url)).getD ""
  let broadcastRosters ← roomRosters roomId none
  let rosters ← roomRosters roomId (some sid)
  if !alreadyIn && !silentJoin && status ≠ some .invisible then
    broadcastToRoom roomId <| message 3 <|
      [("ok", .bool true), ("system", .bool true), ("gameId", .str roomId), ("joined", .str username)]
        ++ broadcastRosters ++ [("iconUrl", .str iconUrl), ("room", room.toJson)]
  let _ ← respondOk sid 3
    ([("gameId", .str roomId)] ++ rosters ++ [("alreadyJoined", .bool alreadyIn),
      ("iconUrl", .str iconUrl), ("myRole", .str (roleToStr (roleInRoom room userId))),
      ("room", room.toJson)]) reqId
  dispatchRoomHistory sid roomId none
  return false

def joinGame (sid : String) (d : Json) : Proto Bool := do
  let reqId := requestId d
  if ← hitRateLimit ("join:session:" ++ sid) 150 10000 then
    respondError sid 3 "Join rate limit exceeded" reqId
  else do
  let some roomId := (d.getStr? "gameId").map Text.trim
    | respondError sid 3 "Malformed request" reqId
  let silentJoin := (d.getBool? "silentJoin").getD false
  match validateRoomId roomId with
  | .error text => respondError sid 3 text reqId
  | .ok () =>
  match ← enterRoom sid roomId with
  | .error text => respondError sid 3 text reqId
  | .ok (alreadyIn, username, userId) =>
  if alreadyIn then
    completeJoin sid roomId username userId true silentJoin reqId
  else do
  let room ← roomRecord roomId
  if room.any (·.bans userId) then
    exitRoom sid roomId
    respondToSender sid <| withRequestId (message 3
      [("error", .str "You are banned from this room"), ("gameId", .str roomId),
        ("banned", .bool true)]) reqId
    return false
  else do
  let _ ← syncRoomRecord roomId
  completeJoin sid roomId username userId false silentJoin reqId

/--
Leave a room. The answer is the username, the client id and whether the messages go with the user.
-/
def quitRoom (sid roomId : String) : Proto (Except String (String × String × Bool)) :=
  .atom fun _ s =>
    match s.players.lookup sid with
    | none => (.error "You need to be identified before", .quiet, s)
    | some player =>
      if player.rooms.contains roomId then
        (.ok (player.username, player.clientId, player.deleteMessagesOnLeave), .left sid roomId,
          { s with players := s.players.modify sid (·.exit roomId) })
      else
        (.error "Not a member of this room", .quiet, s)

/--
Clear the messages of a user who leaves, if the user wants that.
-/
def clearOnLeave (roomId username : String) (shouldClearMessages : Bool) : Proto (List String) :=
  if shouldClearMessages then
    deleteUserMessagesInRoomAndBroadcast roomId username
  else
    return []

def leaveGame (sid : String) (d : Json) : Proto Bool := do
  let reqId := requestId d
  if ← hitRateLimit ("leave:session:" ++ sid) 25 10000 then
    respondError sid 4 "Leave rate limit exceeded" reqId
  else do
  let some roomId := (d.getStr? "gameId").map Text.trim
    | respondError sid 4 "Missing gameId" reqId
  match validateRoomId roomId with
  | .error text => respondError sid 4 text reqId
  | .ok () =>
  match ← quitRoom sid roomId with
  | .error text => respondError sid 4 text reqId
  | .ok (username, clientId, shouldClearMessages) =>
  let _ ← syncRoomRecord roomId
  let rosters ← roomRosters roomId none
  let room ← recordOrRoster roomId none
  broadcastToRoom roomId <| message 4 <|
    [("gameId", .str roomId), ("left", .str username), ("clientId", .str clientId)] ++ rosters
      ++ [("room", room.toJson)]
  let ids ← clearOnLeave roomId username shouldClearMessages
  respondOk sid 4
    [("gameId", .str roomId), ("messagesDeleted", .bool shouldClearMessages),
      ("deletedCount", .int ids.length), ("deletedMessageIds", .arr (ids.map .str))] reqId

end Rooms

section Disconnect

def removePlayer (sid : String) : Proto (Option PlayerSession) :=
  .atom fun _ s =>
    match s.players.lookup sid with
    | some player =>
      (some player, .disconnected sid, { s with players := s.players.erase sid })
    | none => (none, .quiet, s)

/--
Tell a room that a session is gone, unless it was invisible.
-/
def announceLeft (player : PlayerSession) (gameId : String) : Proto Unit :=
  if player.status = .invisible then
    return ()
  else do
    let room ← roomRecord gameId
    broadcastToRoom gameId <| message 4
      [("gameId", .str gameId), ("left", .str player.username), ("clientId", .str player.clientId),
        ("room", (room.getD (defaultRecord gameId)).toJson)]

/--
Tell a room that a session has left its call, unless it was invisible.
-/
def announceHungUp (player : PlayerSession) (gameId : String) : Proto Unit :=
  if player.status = .invisible then
    return ()
  else
    broadcastToRoom gameId <| message 98
      [("gameId", .str gameId), ("user", .str player.username), ("status", player.status.toJson),
        ("isVoiceChat", .bool false), ("clientId", .str player.clientId),
        ("platform", .str player.platform)]

/--
What a disconnected session leaves behind in one of its rooms.
-/
def leaveBehind (player : PlayerSession) (gameId : String) : Proto Unit := do
  let _ ← syncRoomRecord gameId
  announceLeft player gameId
  let _ ← clearOnLeave gameId player.username player.deleteMessagesOnLeave
  announceHungUp player gameId

def leaveBehindAll (player : PlayerSession) : List String → Proto Unit
  | [] => return ()
  | gameId :: rooms => do
    leaveBehind player gameId
    leaveBehindAll player rooms

def disconnectPlayer (sid : String) : Proto Unit := do
  let some player ← removePlayer sid
    | return ()
  if player.userId ≠ "" && player.clientId ≠ "" then
    broadcastSyncPeerEvent player.userId "leave" player.clientId player.platform none
    leaveBehindAll player player.rooms
  else
    leaveBehindAll player player.rooms

end Disconnect

end Lqxp
