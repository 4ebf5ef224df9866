import Lqxp.Websocket.Protocol.Impl.Rooms

/-!
This module contains the handlers for calls: who is in a call with which media, who hears it, and whether the
members of a room may call at all.
-/

namespace Lqxp

def voiceJoinsPerMinute : Nat := 6

/--
The media that a request asks for: audio, camera and screen.
-/
def normalizeCallMedia (media : Option Json) (fallbackAudio : Bool) : Bool × Bool × Bool :=
  let flag (key : String) : Option Bool := media.bind (·.getBool? key)
  ((flag "audio").getD fallbackAudio, (flag "camera").getD false, (flag "screen").getD false)

def namedCallRoom (d : Json) : Option String := trimmedStr? d "gameId"

/--
The call that a request puts a session in, or none.
-/
def PlayerSession.setCall (isVoiceChat camera screen : Bool) (callRoom : Option String)
    (player : PlayerSession) : PlayerSession :=
  if isVoiceChat then
    { player with isVoiceChat := true, callCamera := camera, callScreen := screen, callRoom }
  else
    player.hangUp

/--
Set the call of a session that may be in the room. The answer is the session as it is now, with the rooms
that hear of it.
-/
def setCallIn (sid : String) (isVoiceChat camera screen : Bool) (callRoom : Option String)
    (player : PlayerSession) (players : AssocMap String PlayerSession)
    : Except String (PlayerSession × List String) × AssocMap String PlayerSession :=
  let update := PlayerSession.setCall isVoiceChat camera screen callRoom
  match callRoom with
  | some room =>
    if player.rooms.contains room then
      (.ok (update player, [room]), players.modify sid update)
    else
      (.error "Not a member of this room", players)
  | none => (.ok (update player, player.rooms), players.modify sid update)

section VoiceChat

/--
Whether a session is another one of the same account that is in a call.
-/
def isStaleVoice (sid userId : String) (player : PlayerSession) : Bool :=
  player.id ≠ sid && player.userId = userId && player.isVoiceChat

/--
Take the other sessions of an account out of their calls.
-/
def evictVoice (sid userId : String) (players : AssocMap String PlayerSession)
    : AssocMap String PlayerSession :=
  players.mapValues fun _ player => if isStaleVoice sid userId player then player.hangUp else player

/--
Enter or leave a call. Sessions of the account that are in a call already are taken out of it first, even when
the request fails after all; the answer names them.
-/
def setVoice (sid : String) (isVoiceChat camera screen : Bool) (callRoom : Option String)
    : Proto (Except String (PlayerSession × List String × List PlayerSession)) :=
  .atom fun _ s =>
    match s.players.lookup sid with
    | none => (.error "You need to be identified before", .quiet, s)
    | some player =>
      let evicts := isVoiceChat && player.userId ≠ ""
      let stale := if evicts then s.players.values.filter (isStaleVoice sid player.userId) else []
      let players := if evicts then evictVoice sid player.userId s.players else s.players
      if isVoiceChat && player.status = .invisible then
        (.error "Invisible users cannot join voice chat", .quiet, { s with players })
      else
        let (result, players) := setCallIn sid isVoiceChat camera screen callRoom player players
        (result.map fun x => (x.1, x.2, stale), .quiet, { s with players })

def broadcastVoice (isVoiceChat : Bool) (media : List (String × Json)) (player : PlayerSession)
    : List String → Proto Unit
  | [] => return ()
  | gameId :: rooms => do
    broadcastToRoom gameId <| message 98 <|
      [("gameId", .str gameId), ("user", .str player.username), ("status", player.status.toJson),
        ("isVoiceChat", .bool isVoiceChat), ("clientId", .str player.clientId),
        ("platform", .str player.platform)] ++ media
    broadcastVoice isVoiceChat media player rooms

def broadcastEvicted : List PlayerSession → Proto Unit
  | [] => return ()
  | player :: players => do
    broadcastVoice false [] player player.rooms
    broadcastEvicted players

/--
Whether one more join is over the limit. Only what looks like a join is counted.
-/
def hitVoiceJoin (sid userId : String) (isJoin : Bool) : Proto Bool :=
  if isJoin then
    let key := if userId = "" then "voice_join:session:" ++ sid else "voice_join:user:" ++ userId
    hitRateLimit key voiceJoinsPerMinute 60000
  else
    return false

/--
Whether the record of a room keeps an account out of its calls.
-/
def callsClosed (room : RoomRecord) (userId : String) (overridden : Bool) : Bool :=
  room.kind = .community && !room.callsEnabled && !isRoomAdmin room userId && !overridden

/--
Whether a call may not be entered, because the members of its room may not call.
-/
def voiceRefused (userId : String) (callRoom : Option String) : Proto Bool := do
  let some roomId := callRoom
    | return false
  let some room ← roomRecord roomId
    | return false
  let overridden ← look fun _ s => s.callAccessOverrides.contains roomId
  return callsClosed room userId overridden

/--
When an administrator leaves a call, members may no longer call against the setting of the room.
-/
def closeCallAccess (userId : String) (callRoom : Option String) : Proto Unit := do
  let some roomId := callRoom
    | return ()
  let some room ← roomRecord roomId
    | return ()
  if isRoomAdmin room userId then
    .atom fun _ s => ((), .quiet,
      { s with callAccessOverrides := s.callAccessOverrides.filter (· ≠ roomId) })
    broadcastToRoom roomId <| message 51 [("gameId", .str roomId), ("allowMembers", .bool false)]
  else
    return ()

def completeVoice (sid : String) (isVoiceChat camera screen : Bool) (callRoom : Option String)
    (reqId : Option String) : Proto Bool := do
  match ← setVoice sid isVoiceChat camera screen callRoom with
  | .error text => respondError sid 98 text reqId
  | .ok (player, rooms, stale) =>
  let media := callMediaJson player.isVoiceChat player.callCamera player.callScreen
  broadcastVoice isVoiceChat [("media", media)] player rooms
  broadcastEvicted stale
  respondOk sid 98 [] reqId

/--
Whether calls are switched off for the whole server.
-/
def callsSwitchedOff (isVoiceChat : Bool) : Proto Bool :=
  if isVoiceChat then do
    let enabled ← callsEnabledFlag
    return !enabled
  else
    return false

def updateVoiceChat (sid : String) (d : Json) : Proto Bool := do
  let reqId := requestId d
  if ← hitRateLimit ("voice_chat:session:" ++ sid) 10 5000 then
    respondError sid 98 "Voice chat rate limit exceeded" reqId
  else do
  let isVoiceChat := (d.getBool? "isVoiceChat").getD false
  if ← callsSwitchedOff isVoiceChat then
    respondError sid 98 "Calls are disabled by the server" reqId
  else do
  let (_, camera, screen) := normalizeCallMedia (d.get? "media") isVoiceChat
  let callRoom := namedCallRoom d
  let (userId, alreadyInVoice) ← look fun _ s =>
    ((s.players.lookup sid).map fun player => (player.userId, player.isVoiceChat)).getD ("", false)
  if ← hitVoiceJoin sid userId (isVoiceChat && !alreadyInVoice) then
    respondError sid 98 "Too many call joins, wait a moment" reqId
  else if isVoiceChat then do
    if ← voiceRefused userId callRoom then
      respondError sid 98 "Calls are disabled in this room" reqId
    else
      completeVoice sid isVoiceChat camera screen callRoom reqId
  else do
    closeCallAccess userId callRoom
    completeVoice sid isVoiceChat camera screen callRoom reqId

end VoiceChat

section CallMedia

/--
Set the media of a session in a call. Nobody is taken out of a call.
-/
def setCallMedia (sid : String) (isVoiceChat camera screen : Bool) (callRoom : Option String)
    : Proto (Except String (PlayerSession × List String)) :=
  .atom fun _ s =>
    match s.players.lookup sid with
    | none => (.error "You need to be identified before", .quiet, s)
    | some player =>
      let duplicate := isVoiceChat && player.userId ≠ ""
        && s.players.values.any (isStaleVoice sid player.userId)
      if player.username = "" then
        (.error "You need to be identified before", .quiet, s)
      else if isVoiceChat && player.status = .invisible then
        (.error "Invisible users cannot join calls", .quiet, s)
      else if duplicate then
        (.error "This account is already connected to a call", .quiet, s)
      else
        let (result, players) := setCallIn sid isVoiceChat camera screen callRoom player s.players
        (result, .quiet, { s with players })

def broadcastCallMedia (isVoiceChat : Bool) (media : Json) (player : PlayerSession)
    : List String → Proto Unit
  | [] => return ()
  | gameId :: rooms => do
    broadcastToRoom gameId <| message 110
      [("gameId", .str gameId), ("user", .str player.username), ("status", player.status.toJson),
        ("isVoiceChat", .bool isVoiceChat), ("clientId", .str player.clientId),
        ("platform", .str player.platform), ("media", media)]
    broadcastCallMedia isVoiceChat media player rooms

def updateCallMediaState (sid : String) (d : Json) : Proto Bool := do
  let reqId := requestId d
  if ← hitRateLimit ("call_media:session:" ++ sid) 10 5000 then
    respondError sid 110 "Media state rate limit exceeded" reqId
  else do
  let isVoiceChat := (d.getBool? "isVoiceChat").getD false
  if ← callsSwitchedOff isVoiceChat then
    respondError sid 110 "Calls are disabled by the server" reqId
  else do
  let (audio, camera, screen) := normalizeCallMedia (d.get? "media") isVoiceChat
  match ← setCallMedia sid isVoiceChat camera screen (namedCallRoom d) with
  | .error text => respondError sid 110 text reqId
  | .ok (player, rooms) =>
  let media := callMediaJson (audio && isVoiceChat) player.callCamera player.callScreen
  broadcastCallMedia isVoiceChat media player rooms
  respondOk sid 110 [] reqId

end CallMedia

section Deafened

def setDeafened (sid gameId : String) (isDeafened : Bool) : Proto (Except String PlayerSession) :=
  .atom fun _ s =>
    match s.players.lookup sid with
    | none => (.error "You need to be identified before", .quiet, s)
    | some player =>
      if player.username = "" then
        (.error "You need to be identified before", .quiet, s)
      else if !player.rooms.contains gameId then
        (.error "Not a member of this room", .quiet, s)
      else if !player.isCallInRoom gameId then
        (.error "Not in this call", .quiet, s)
      else
        let update (player : PlayerSession) : PlayerSession := { player with callDeafened := isDeafened }
        (.ok (update player), .quiet, { s with players := s.players.modify sid update })

def updateCallDeafenedState (sid : String) (d : Json) : Proto Bool := do
  let isDeafened := (d.getBool? "isDeafened").getD false
  let some gameId := namedCallRoom d
    | respondError sid 112 "Missing gameId" (requestId d)
  match validateRoomId gameId with
  | .error text => respondError sid 112 text (requestId d)
  | .ok () =>
  match ← setDeafened sid gameId isDeafened with
  | .error text => respondError sid 112 text (requestId d)
  | .ok player =>
  broadcastToRoom gameId <| message 112
    [("gameId", .str gameId), ("user", .str player.username), ("status", player.status.toJson),
      ("isDeafened", .bool isDeafened), ("clientId", .str player.clientId),
      ("platform", .str player.platform)]
  respondOk sid 112 [] (requestId d)

end Deafened

/--
Open the calls of a room to its members against the setting of the room, or take that back.
-/
def setCallAccess (sid : String) (d : Json) : Proto Bool :=
  communityRequest 51 "call_access" 10 30000 "Not a community room" sid d fun actor roomId room => do
    if !isRoomAdmin room actor.1 then
      respondError sid 51 "You are not allowed to change call access" (requestId d)
    else do
    let allowMembers := (d.getBool? "allowMembers").getD false
    .atom fun _ s =>
      let others := s.callAccessOverrides.filter (· ≠ roomId)
      ((), .quiet, { s with callAccessOverrides := if allowMembers then others ++ [roomId] else others })
    broadcastToRoom roomId <| message 51
      [("gameId", .str roomId), ("allowMembers", .bool allowMembers)]
    respondOk sid 51 [("gameId", .str roomId), ("allowMembers", .bool allowMembers)] (requestId d)

end Lqxp
