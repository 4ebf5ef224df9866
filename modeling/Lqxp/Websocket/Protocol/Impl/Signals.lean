import Mathlib.Data.List.Sort
import Lqxp.Websocket.Protocol.Impl.Calls

/-!
This module contains the handlers that store nothing: what they are told goes to other sessions at once, or only
concerns the session that sent it.
-/

namespace Lqxp

def maxMutedUsersPerPlayer : Nat := 200

def maxRoomSignalBytes : Nat := 64 * 1024

section Kills

def reportedName (d : Json) (key : String) : Option String :=
  (d.getStr? key).map fun name => Text.takeChars 64 (Text.trim name)

def isMember (sid gameId : String) : Proto Bool :=
  look fun _ s => (s.players.lookup sid).any fun player => player.rooms.contains gameId

/--
The part of a report that follows the checks of its content.
-/
def announceKill (sid gameId killer killed : String) (reqId : Option String) : Proto Bool := do
  if ← isMember sid gameId then
    let now ← nowMs
    broadcastToRoom gameId <| message 5
      [("gameId", .str gameId), ("killer", .str killer), ("killed", .str killed), ("timestamp", .int now)]
    respondOk sid 5 [("gameId", .str gameId)] reqId
  else
    respondError sid 5 "Not a member of this room" reqId

def reportKill (sid : String) (d : Json) : Proto Bool := do
  let reqId := requestId d
  if ← hitRateLimit ("report_kill:session:" ++ sid) 10 10000 then
    respondError sid 5 "Kill report rate limit exceeded" reqId
  else do
  let some killer := reportedName d "killer"
    | respondError sid 5 "Malformed request" reqId
  let some killed := reportedName d "killed"
    | respondError sid 5 "Malformed request" reqId
  if killer = "" || killed = "" then
    respondError sid 5 "Malformed request" reqId
  else do
  let some gameId := trimmedStr? d "gameId"
    | respondError sid 5 "Missing gameId" reqId
  announceKill sid gameId killer killed reqId

end Kills

section CallSignals

/--
The session that sends a signal, and the one that it is for. Both are in the call of the room.
-/
def callRoute (sid gameId toUser toClientId : String) : Proto (Except String (PlayerSession × PlayerSession)) :=
  look fun e s =>
    match s.players.lookup sid with
    | none => .error "You need to be identified before"
    | some sender =>
      if !sender.rooms.contains gameId || !sender.isCallInRoom gameId then
        .error "Not in this call"
      else
        let targets := s.players.values.filter fun player =>
          player.username = toUser && player.rooms.contains gameId && player.isCallInRoom gameId
            && (toClientId = "" || player.clientId = toClientId)
        match pickFrom e targets with
        | some target => .ok (sender, target)
        | none => .error "Target is not in this call"

/--
Queue a message for sessions that have been looked up before.
-/
def sendTo (recipients : List String) (payload : Json) : Proto Unit :=
  .atom fun _ s => ((), .broadcast recipients payload, s)

def signalContent (d : Json) : List (String × Json) :=
  let sdp := (d.getStr? "sdp").map (Text.takeChars 128000)
  let candidate := (d.get? "candidate").filter fun value => value.isObject && Text.len value.render ≤ 64 * 1024
  (sdp.map fun sdp => ("sdp", Json.str sdp)).toList ++ (candidate.map fun value => ("candidate", value)).toList

def relayCallSignal (sid : String) (d : Json) : Proto Bool := do
  let reqId := requestId d
  if ← hitRateLimit ("call_signal:session:" ++ sid) 40 3000 then
    respondError sid 111 "Signaling rate limit exceeded" reqId
  else do
  let enabled ← callsEnabledFlag
  if !enabled then
    respondError sid 111 "Calls are disabled by the server" reqId
  else do
  let some gameId := (d.getStr? "gameId").map Text.trim
    | respondError sid 111 "Missing gameId" reqId
  match validateRoomId gameId with
  | .error text => respondError sid 111 text reqId
  | .ok () =>
  let some toUser := (d.getStr? "to").map Text.trim
    | respondError sid 111 "Missing target" reqId
  let toClientId := sanitizeClientId (d.getStr? "toClientId")
  let signalType := ((d.getStr? "type").map Text.trim).getD ""
  if !(["offer", "answer", "ice"].contains signalType) then
    respondError sid 111 "Invalid signal type" reqId
  else do
  match ← callRoute sid gameId toUser toClientId with
  | .error text => respondError sid 111 text reqId
  | .ok (sender, target) =>
  sendTo [target.id] <| message 111 <|
    [("gameId", .str gameId), ("from", .str sender.username), ("fromClientId", .str sender.clientId),
      ("fromPlatform", .str sender.platform), ("to", .str toUser), ("toClientId", .str toClientId),
      ("type", .str signalType)] ++ signalContent d
  return false

end CallSignals

section RoomSignals

/--
The name of the session that sends a signal, and the other sessions in the room.
-/
def roomRoute (sid roomId : String) : Proto (Except String (String × List String)) :=
  look fun _ s =>
    match s.players.lookup sid with
    | none => .error "You need to be identified before"
    | some sender =>
      if sender.username = "" || !sender.rooms.contains roomId then
        .error "Not a member of this room"
      else
        let others := s.players.entries.filter fun x => x.1 ≠ sid && x.2.rooms.contains roomId
        .ok (sender.username, others.map (·.1))

/--
Pass an encrypted payload on to the other members of a room. Nothing is stored, and nothing of it is read.
-/
def relayRoomSignal (sid : String) (d : Json) : Proto Bool := do
  let reqId := requestId d
  if ← hitRateLimit ("room_signal:session:" ++ sid) 60 10000 then
    respondError sid 55 "Rate limit exceeded" reqId
  else do
  let some roomId := trimmedStr? d "gameId"
    | respondError sid 55 "Missing gameId" reqId
  let some encrypted := (d.get? "encrypted").filter (·.isObject)
    | respondError sid 55 "Missing payload" reqId
  if maxRoomSignalBytes < Text.len encrypted.render then
    respondError sid 55 "Payload too large" reqId
  else do
  match ← roomRoute sid roomId with
  | .error text => respondError sid 55 text reqId
  | .ok (sender, recipients) =>
  sendTo recipients <| message 56 [("roomId", .str roomId), ("from", .str sender), ("encrypted", encrypted)]
  return false

def typingName (sid roomId : String) : Proto (Except String String) :=
  look fun _ s =>
    match s.players.lookup sid with
    | none => .error "You need to be identified before"
    | some player => if player.rooms.contains roomId then .ok player.username else .error "You are not in this room"

def updateTypingState (sid : String) (d : Json) : Proto Bool := do
  let reqId := requestId d
  if ← hitRateLimit ("typing:session:" ++ sid) 10 5000 then
    return false
  else do
  match ← resolveRoomForSession sid (d.getStr? "gameId") with
  | .error text => respondError sid 31 text reqId
  | .ok roomId =>
  let typing := (d.getBool? "typing").getD false
  match ← typingName sid roomId with
  | .error text => respondError sid 31 text reqId
  | .ok username =>
  broadcastToRoom roomId <| message 31
    [("gameId", .str roomId), ("username", .str username), ("typing", .bool typing)]
  return false

end RoomSignals

section Mutes

/--
Mute another user for a session, or take that back.
-/
def PlayerSession.mute (username : String) (isMuted : Bool) (player : PlayerSession) : PlayerSession :=
  if isMuted then
    if player.mutedUsers.contains username then
      player
    else
      { player with mutedUsers := player.mutedUsers ++ [username] }
  else
    { player with mutedUsers := player.mutedUsers.filter (· ≠ username) }

def setMuted (sid username : String) (isMuted : Bool) : Proto (Except String Unit) :=
  .atom fun _ s =>
    match s.players.lookup sid with
    | none => (.error "You need to be identified before", .quiet, s)
    | some player =>
      if player.username = "" then
        (.error "You need to be identified before", .quiet, s)
      else if isMuted && maxMutedUsersPerPlayer ≤ player.mutedUsers.length
          && !player.mutedUsers.contains username then
        (.error "Too many muted users (200 max)", .quiet, s)
      else
        (.ok (), .quiet, { s with players := s.players.modify sid (·.mute username isMuted) })

def updateMuteState (sid : String) (d : Json) : Proto Bool := do
  let some rawUsername := d.getStr? "user"
    | respondError sid 100 "Malformed request" (requestId d)
  let username := Text.takeChars 32 (Text.trim rawUsername)
  if username = "" then
    respondError sid 100 "Malformed request" (requestId d)
  else do
  let some isMuted := d.getBool? "isMuted"
    | respondError sid 100 "Malformed request" (requestId d)
  match ← setMuted sid username isMuted with
  | .error text => respondError sid 100 text (requestId d)
  | .ok () => return false

end Mutes

section Administration

def sessionIsAdmin (sid : String) : Proto Bool :=
  look fun _ s => (s.players.lookup sid).any fun player => player.isAdmin && player.username ≠ ""

def optBool (value : Option Bool) : Json := (value.map Json.bool).getD .null

def PlayerSession.statusEntry (player : PlayerSession) : Json :=
  .obj [("username", .str player.username), ("id", .str player.userId),
    ("isVoiceChat", .bool player.isVoiceChat),
    ("rooms", .arr ((player.rooms.insertionSort (· ≤ ·)).map .str)), ("version", .str player.version),
    ("mobile", optBool player.isMobile), ("secureContext", optBool player.isSecure),
    ("deleteMessagesOnLeave", .bool player.deleteMessagesOnLeave), ("profile", player.profile.toJson),
    ("status", player.status.toJson), ("badges", .arr (player.badges.map .str))]

def adminStatus (sid : String) (d : Json) : Proto Bool := do
  if !(← sessionIsAdmin sid) then
    respondError sid 101 "Unauthorized" (requestId d)
  else do
  let players ← look fun _ s => s.players.values.map PlayerSession.statusEntry
  respondOk sid 101 [("onlineCount", .int players.length), ("players", .arr players)] (requestId d)

/--
The sessions that an announcement is for: all of them, or those of one client only.
-/
def announcementRecipients (onlyKsx : Bool) : Proto (List String) :=
  look fun _ s =>
    (s.players.values.filter fun player => !onlyKsx || Text.contains player.version "Ksx").map (·.id)

def adminBroadcast (sid : String) (d : Json) : Proto Bool := do
  if !(← sessionIsAdmin sid) then
    respondError sid 104 "Unauthorized" (requestId d)
  else do
  let some raw := d.getStr? "msg"
    | respondError sid 104 "Missing msg" (requestId d)
  let msg := Text.takeChars 2000 (Text.trim raw)
  if msg = "" then
    respondError sid 104 "Missing msg" (requestId d)
  else do
  let onlyKsx := (d.get? "x").any fun x => match x with
    | .int n => n = 1
    | _ => false
  let recipients ← announcementRecipients onlyKsx
  sendTo recipients (message 87 [("msg", .str msg)])
  respondOk sid 104 [("msg", .str msg)] (requestId d)

end Administration

section Stats

/--
The room that a question is about, if any. Only an identified session may ask.
-/
def statsRoom (sid : String) (d : Json) : Proto (Except String (Option String)) := do
  match d.getStr? "gameId" with
  | some gameId =>
    match ← resolveRoomForSession sid (some gameId) with
    | .error text => return .error text
    | .ok roomId => return .ok (some roomId)
  | none =>
    look fun _ s =>
      match s.players.lookup sid with
      | some player => if player.username ≠ "" then .ok none else .error "You need to be identified before"
      | none => .error "You need to be identified before"

def onlineCount : Option String → Proto Nat
  | some roomId => do
    let usernames ← roomUsernames roomId none
    return usernames.length
  | none => look fun _ s => s.players.size

def statsQuery (sid : String) (d : Json) : Proto Bool := do
  let reqId := requestId d
  if ← hitRateLimit ("stats_query:session:" ++ sid) 10 5000 then
    respondError sid 105 "Stats query rate limit exceeded" reqId
  else do
  match ← statsRoom sid d with
  | .error text => respondError sid 105 text reqId
  | .ok gameId =>
  let count ← onlineCount gameId
  respondOk sid 105 [("count", .int count), ("gameId", (gameId.map Json.str).getD .null)] reqId

end Stats

end Lqxp
