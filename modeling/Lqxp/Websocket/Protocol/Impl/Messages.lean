import Lqxp.Linkpreview
import Lqxp.Websocket.Protocol.Impl.Basic
import Lqxp.Websocket.Protocol.Impl.Buffer
import Lqxp.Websocket.Protocol.Impl.Payload

/-!
This module contains the handlers that send, react to, delete, edit and decorate messages.
-/

namespace Lqxp

def maxMessageChars : Nat := 2000

def minBetweenMessageInterval : Nat := 400

section Reactions

def sanitizeReactionEmoji (value : String) : Option String :=
  let trimmed := Text.trim value
  if trimmed = "" || 32 < trimmed.length then
    none
  else if trimmed.toList.any fun c => Text.isControl c || Text.isWhitespace c then
    none
  else
    some trimmed

/--
The hint names the room to look in first; after that any room will do.
-/
def updateMessageReactions (messageId emoji username : String) (roomHint : Option String)
    : Proto (Option (String × List MessageReaction)) :=
  .atom fun e s =>
    let hinted := ((roomHint.map Text.trim).filter (· ≠ "")).filter fun room =>
      hasMessage messageId (s.messages room)
    match hinted.or (pickFrom e (s.roomsWithMessage messageId)) with
    | none => (none, .quiet, s)
    | some room =>
      let change := .reacted messageId emoji username
      let s' := s.change room change
      let reactions := ((findMessage messageId (s'.messages room)).map (·.reactions)).getD []
      (some (room, reactions), .changed room change, s')

end Reactions

section PreviewTasks

def spawnPreview (task : PreviewTask) : Proto Unit :=
  .atom fun _ s => ((), .quiet, { s with previewTasks := s.previewTasks ++ [task] })

def takePreview (n : Nat) : Proto (Option PreviewTask) :=
  .atom fun _ s => (s.previewTasks[n]?, .quiet, { s with previewTasks := s.previewTasks.eraseIdx n })

/--
Whether a finished task may still decorate the message it was spawned for.
-/
def PreviewCause.admits (message : ChatMessageRecord) : PreviewCause → Bool
  | .sent => !message.deleted && message.editedAt.isNone
  | .edited editedAt =>
    !message.deleted && message.preview.isNone && message.editedAt = some editedAt
  | .requested editedAt =>
    !message.deleted && message.encrypted.isSome && message.preview.isNone
      && message.editedAt = editedAt

/--
Whether the task announces its preview. The task of a sent message announces it even when the message
is gone.
-/
def patchPreview (task : PreviewTask) (preview : LinkPreview) : Proto Bool :=
  .atom fun _ s =>
    match findMessage task.messageId (s.messages task.room) with
    | none => (task.cause = .sent, .quiet, s)
    | some message =>
      if task.cause.admits message then
        let change := .decorated task.messageId preview
        (true, .changed task.room change, s.change task.room change)
      else
        (false, .quiet, s)

/--
One of the tasks that fetch the preview of a link and attach it to a message.
-/
def runPreviewTask (n : Nat) : Proto Bool := do
  let some task ← takePreview n
    | return false
  let some preview ← look fun e _ => e.fetch task.url
    | return false
  if ← patchPreview task preview then
    broadcastToRoom task.room <| message 23
      [("gameId", .str task.room), ("messageId", .str task.messageId), ("preview", preview.toJson)]
    return false
  else
    return false

end PreviewTasks

def announceCleared (gameId deletedBy : String) (deletedAt : Nat) (ids : List String)
    : Proto (List String) :=
  if ids = [] then
    return ids
  else do
    broadcastToRoom gameId <| message 25
      [("ok", .bool true), ("gameId", .str gameId), ("deletedBy", .str deletedBy),
        ("deletedAt", .int deletedAt), ("deletedCount", .int ids.length),
        ("messageIds", .arr (ids.map .str))]
    return ids

/--
Clear every message that a user has in a room, by the name that the messages carry.
-/
def deleteUserMessagesInRoomAndBroadcast (gameId deletedBy : String) : Proto (List String) := do
  let deletedAt ← nowMs
  let ids ← .atom fun _ s =>
    match s.roomMessages.lookup gameId with
    | none => ([], .quiet, s)
    | some messages =>
      let hit := messages.filter fun message => !message.deleted && message.username = deletedBy
      let change := .cleared deletedBy
      (hit.map (·.messageId), .changed gameId change, s.change gameId change)
  announceCleared gameId deletedBy deletedAt ids

section Sending

/--
Draw the id of a message and append it to the buffer of its room.
-/
def storeRoomMessage (roomId : String) (message : ChatMessageRecord) : Proto ChatMessageRecord :=
  .atom fun e s =>
    let message := { message with messageId := e.randomId }
    (message, .changed roomId (.stored message), s.change roomId (.stored message))

/--
The checks on the sender of a message, which also start the waiting time for the next one.
-/
def admitSender (sid roomId : String) (now : Nat) : Proto (Except String (String × String)) :=
  .atom fun _ s =>
    match s.players.lookup sid with
    | none => (.error "You need to be identified before sending message", .quiet, s)
    | some player =>
      let waited := now - player.lastMessageTimestamp.getD 0
      if player.username = "" then
        (.error "You need to be identified before sending message", .quiet, s)
      else if !player.rooms.contains roomId then
        (.error "Not a member of this room", .quiet, s)
      else if player.lastMessageTimestamp.isSome && waited < minBetweenMessageInterval then
        let text := "You need to wait " ++ toString waited ++ "ms until the next message"
        (.error text, .quiet, s)
      else
        let players := s.players.modify sid fun player =>
          { player with lastMessageTimestamp := some now }
        (.ok (player.username, player.userId), .actor player.userId player.username,
          { s with players })

/--
Whether the record of a community room, if it can be read, keeps an account from speaking there.
-/
def isSilenced (roomId userId : String) : Proto Bool := do
  let some room ← roomRecord roomId
    | return false
  let now ← nowMs
  return room.kind = .community && !canSpeak room userId now

/--
Whether an encrypted payload was made for another room.
-/
def isRoomMismatch (encrypted : Option EncryptedPayload) (roomId : String) : Bool :=
  (encrypted.bind (·.roomId)).any (· ≠ roomId)

/--
The content of a message that is about to be sent.
-/
structure Draft where
  text : String
  encrypted : Option EncryptedPayload
  attachment : Option Attachment
  replyToMessageId : Option String

def Draft.problem? (draft : Draft) : Option String :=
  if draft.encrypted.isSome && (draft.text ≠ "" || draft.attachment.isSome) then
    some "Encrypted messages cannot include plaintext fields"
  else if draft.text = "" && draft.attachment.isNone && draft.encrypted.isNone then
    some "Empty message"
  else
    none

def Draft.toMessage (draft : Draft) (roomId username userId : String) (profile : UserProfile)
    (now : Nat) : ChatMessageRecord :=
  let tag := if roomId = "lobby" then "[lobby]" else "[in-game]"
  { messageId := "", roomId, user := tag ++ " " ++ username, username, userId,
    text := if draft.encrypted.isSome then "" else draft.text, timestamp := now, profile,
    replyToMessageId := draft.replyToMessageId,
    attachment := if draft.encrypted.isSome then none else draft.attachment,
    encrypted := draft.encrypted }

/--
Announce a stored message and have its first link looked at.
-/
def announceMessage (sid roomId : String) (draft : Draft) (stored : ChatMessageRecord)
    (reqId : Option String) : Proto Bool := do
  broadcastToRoom roomId (.obj [("op", .int 7), ("d", stored.toJson)])
  let _ ← respondOk sid 7 [("messageId", .str stored.messageId)] reqId
  if let some url := if draft.encrypted.isSome then none else findFirstUrl draft.text then
    spawnPreview { room := roomId, messageId := stored.messageId, url, cause := .sent }
  return false

/--
The part of sending that follows the checks of the content.
-/
def deliverMessage (sid roomId : String) (draft : Draft) (reqId : Option String) : Proto Bool := do
  if ← hitRateLimit ("chat:session:" ++ sid) 15 10000 then
    respondError sid 7 "Message rate limited" reqId
  else do
  let now ← nowMs
  match ← admitSender sid roomId now with
  | .error text => respondError sid 7 text reqId
  | .ok (username, userId) =>
  let profile ← look fun _ s => ((s.players.lookup sid).map (·.profile)).getD {}
  if ← isSilenced roomId userId then
    respondError sid 7 "You are not allowed to speak in this room" reqId
  else do
  let stored ← storeRoomMessage roomId (draft.toMessage roomId username userId profile now)
  announceMessage sid roomId draft stored reqId

/--
The room that a message is sent to and the encrypted payload that it carries.
-/
def parseDestination (d : Json) : Except String (String × Option EncryptedPayload) := do
  let encrypted ← parseEncryptedPayload (d.get? "encrypted")
  let some roomId := (d.getStr? "gameId").map Text.trim
    | throw "Missing gameId"
  if isRoomMismatch encrypted roomId then
    throw "Encrypted room mismatch"
  validateRoomId roomId
  return (roomId, encrypted)

def messageText (d : Json) : String :=
  Text.takeChars maxMessageChars (Text.trim ((d.getStr? "text").getD ""))

def sendChatMessage (sid : String) (d : Json) : Proto Bool := do
  let reqId := requestId d
  match parseDestination d with
  | .error text => respondError sid 7 text reqId
  | .ok (roomId, encrypted) =>
  match ← parseAttachment (d.get? "attachment") with
  | .error text => respondError sid 7 text reqId
  | .ok attachment =>
  let replyToMessageId := (trimmedStr? d "replyToMessageId").map (Text.takeChars 80)
  let draft : Draft := { text := messageText d, encrypted, attachment, replyToMessageId }
  match draft.problem? with
  | some text => respondError sid 7 text reqId
  | none => deliverMessage sid roomId draft reqId

end Sending

section Editing

/--
The room that a message is in: the one of the hint or, without a hint, any room that has the message.
-/
def locateMessage (messageId : String) (roomHint : Option String) : Proto (Option String) :=
  .atom fun e s =>
    let found :=
      match (roomHint.map Text.trim).filter (· ≠ "") with
      | some hint => if hasMessage messageId (s.messages hint) then some hint else none
      | none => pickFrom e (s.roomsWithMessage messageId)
    match found with
    | some room => (some room, .located messageId room, s)
    | none => (none, .quiet, s)

/--
The part of a reaction that follows the checks of its content.
-/
def applyReaction (sid messageId emoji : String) (roomHint reqId : Option String)
    : Proto Bool := do
  let some player ← identifiedPlayer sid
    | respondError sid 19 "You need to be identified before" reqId
  let some room ← locateMessage messageId roomHint
    | respondError sid 19 "Unknown messageId" reqId
  if !player.rooms.contains room then
    respondError sid 19 "Not a member of this room" reqId
  else do
  if ← isSilenced room player.userId then
    respondError sid 19 "You are not allowed to speak in this room" reqId
  else do
  let some (room, reactions) ← updateMessageReactions messageId emoji player.username roomHint
    | respondError sid 19 "Unknown messageId" reqId
  broadcastToRoom room <| message 20
    [("roomId", .str room), ("messageId", .str messageId),
      ("reactions", .arr (reactions.map MessageReaction.toJson))]
  respondOk sid 19 [("messageId", .str messageId)] reqId

def toggleMessageReaction (sid : String) (d : Json) : Proto Bool := do
  let reqId := requestId d
  if ← hitRateLimit ("reaction:session:" ++ sid) 15 5000 then
    respondError sid 19 "Rate limit exceeded" reqId
  else do
  let some messageId := (d.getStr? "messageId").map Text.trim
    | respondError sid 19 "Missing messageId" reqId
  let some rawEmoji := d.getStr? "reaction"
    | respondError sid 19 "Missing reaction" reqId
  let some emoji := sanitizeReactionEmoji rawEmoji
    | respondError sid 19 "Invalid reaction" reqId
  applyReaction sid messageId emoji (d.getStr? "gameId") reqId

/--
Authorship is decided on the account id whenever the message carries one; the name is only a fallback
for messages stored before ids were recorded.
-/
def isMessageAuthor (messageUserId messageUsername actorUserId actorUsername : String) : Bool :=
  if messageUserId = "" then
    messageUsername ≠ "" && messageUsername = actorUsername
  else
    actorUserId ≠ "" && messageUserId = actorUserId

/--
Whether the role of an account in a room lets it delete the messages of another account there.
-/
def roleCanDelete (room : RoomRecord) (actorId authorId : String) : Bool :=
  let authorRole := roleInRoom room authorId
  match roleInRoom room actorId with
  | .administrator => true
  | .subAdministrator => authorRole = .member || authorRole = .moderator
  | .moderator => room.modPermissions.canDelete && authorRole = .member
  | .member => false

/--
Whether an account may delete a message, and whether it does so as a moderator of the room.
-/
def canDeleteMessage (room : Option RoomRecord) (message : ChatMessageRecord)
    (player : PlayerSession) : Bool × Bool :=
  let isAuthor := isMessageAuthor message.userId message.username player.userId player.username
  match room.filter (·.kind = .community) with
  | some room =>
    if isAuthor then
      (true, false)
    else
      let allowed := roleCanDelete room player.userId message.userId
      (allowed, allowed)
  | none => (player.isAdmin || isAuthor, false)

structure DeletedMessage where
  roomId : String
  alreadyDeleted : Bool
  byModerator : Bool

/--
The room and the message that a deletion is about.
-/
def findForDeletion (e : Env) (s : AppState) (messageId : String) (roomHint : Option String)
    : Option (String × ChatMessageRecord) :=
  match (roomHint.filter (· ≠ "")).or (pickFrom e (s.roomsWithMessage messageId)) with
  | none => none
  | some room => (findMessage messageId (s.messages room)).map (room, ·)

/--
The lock section of a deletion, in which the record of the room is read. `player` is the sender as it
was before.
-/
def deleteFoundMessage (messageId : String) (roomHint : Option String) (player : PlayerSession)
    : Proto (Except String DeletedMessage) :=
  .atom fun e s =>
    match findForDeletion e s messageId roomHint with
    | none => (.error "Unknown messageId", .quiet, s)
    | some (roomId, message) =>
      if message.deleted then
        (.ok { roomId, alreadyDeleted := true, byModerator := false }, .quiet, s)
      else
        match canDeleteMessage (e.readRoom s roomId) message player with
        | (false, _) => (.error "You are not allowed to delete this message", .quiet, s)
        | (true, byModerator) =>
          let change := .deleted messageId player.username byModerator
          (.ok { roomId, alreadyDeleted := false, byModerator }, .changed roomId change,
            s.change roomId change)

def deleteMessage (sid : String) (d : Json) : Proto Bool := do
  let reqId := requestId d
  if ← hitRateLimit ("delete_message:session:" ++ sid) 10 10000 then
    respondError sid 21 "Rate limit exceeded" reqId
  else do
  let some messageId := trimmedStr? d "messageId"
    | respondError sid 21 "Missing messageId" reqId
  let roomHint := (d.getStr? "gameId").map Text.trim
  let some player ← identifiedPlayer sid
    | respondError sid 21 "You need to be identified before" reqId
  let timestamp ← nowMs
  match ← deleteFoundMessage messageId roomHint player with
  | .error text => respondError sid 21 text reqId
  | .ok hit =>
  if !hit.alreadyDeleted then
    broadcastToRoom hit.roomId <| message 22
      [("gameId", .str hit.roomId), ("messageId", .str messageId),
        ("deletedBy", .str player.username), ("deletedByModerator", .bool hit.byModerator),
        ("deletedAt", .int timestamp)]
  respondOk sid 21 [("gameId", .str hit.roomId), ("messageId", .str messageId)] reqId

/--
The lock section of an edit. `player` is the sender as it was before.
-/
def editFoundMessage (messageId roomId text : String) (player : PlayerSession)
    (encrypted : Option EncryptedPayload) (editedAt : Nat)
    : Proto (Except String ChatMessageRecord) :=
  .atom fun _ s =>
    match findMessage messageId (s.messages roomId) with
    | none => (.error "Unknown messageId", .quiet, s)
    | some message =>
      if message.deleted then
        (.error "Message was deleted", .quiet, s)
      else if message.system then
        (.error "System messages cannot be edited", .quiet, s)
      else if !isMessageAuthor message.userId message.username player.userId player.username then
        (.error "Only the author can edit this message", .quiet, s)
      else
        let change := .edited messageId text player.profile encrypted editedAt
        let s' := s.change roomId change
        let edited := (findMessage messageId (s'.messages roomId)).getD message
        (.ok edited, .changed roomId change, s')

/--
The part of an edit that follows the checks of the content.
-/
def applyEdit (sid messageId roomId text : String) (encrypted : Option EncryptedPayload)
    (reqId : Option String) : Proto Bool := do
  let some player ← identifiedPlayer sid
    | respondError sid 29 "You need to be identified before" reqId
  if !player.rooms.contains roomId then
    respondError sid 29 "Not a member of this room" reqId
  else do
  let editedAt ← nowMs
  match ← editFoundMessage messageId roomId text player encrypted editedAt with
  | .error text => respondError sid 29 text reqId
  | .ok edited =>
  broadcastToRoom roomId (.obj [("op", .int 30), ("d", edited.toJson)])
  let _ ← respondOk sid 29
    [("gameId", .str roomId), ("messageId", .str messageId), ("editedAt", .int editedAt)] reqId
  if let some url := if encrypted.isSome then none else findFirstUrl text then
    spawnPreview { room := roomId, messageId, url, cause := .edited editedAt }
  return false

def editMessage (sid : String) (d : Json) : Proto Bool := do
  let reqId := requestId d
  if ← hitRateLimit ("edit_message:session:" ++ sid) 10 10000 then
    respondError sid 29 "Rate limit exceeded" reqId
  else do
  let some messageId := trimmedStr? d "messageId"
    | respondError sid 29 "Missing messageId" reqId
  match parseDestination d with
  | .error text => respondError sid 29 text reqId
  | .ok (roomId, encrypted) =>
  let text := messageText d
  if encrypted.isSome && text ≠ "" then
    respondError sid 29 "Encrypted edits cannot include plaintext fields" reqId
  else if encrypted.isNone && text = "" then
    respondError sid 29 "Empty message" reqId
  else
    applyEdit sid messageId roomId text encrypted reqId

end Editing

section Previews

def sanitizePreviewUrl (value : String) : Option String :=
  let trimmed := Text.trim value
  if trimmed = "" || 2048 < trimmed.length then
    none
  else
    let lower := Text.toAsciiLower trimmed
    if Text.startsWith lower "http://" || Text.startsWith lower "https://" then
      some trimmed
    else
      none

/--
The part of a request for a preview that follows the checks of its content.
-/
def findPreviewTarget (sid roomId messageId url : String) (reqId : Option String) : Proto Bool := do
  let some player ← identifiedPlayer sid
    | respondError sid 28 "You need to be identified before" reqId
  if !player.rooms.contains roomId then
    respondError sid 28 "Not a member of this room" reqId
  else do
  let rateKey :=
    if player.userId = "" then "link_preview:session:" ++ sid else "link_preview:user:" ++ player.userId
  if ← hitRateLimit rateKey 40 30000 then
    respondError sid 28 "Rate limit exceeded" reqId
  else do
  let some message ← look fun _ s => findMessage messageId (s.messages roomId)
    | respondError sid 28 "Unknown messageId" reqId
  if message.deleted then
    respondError sid 28 "Message was deleted" reqId
  else if message.encrypted.isNone then
    respondError sid 28 "Preview requests are only needed for encrypted messages" reqId
  else if message.preview.isSome then
    respondOk sid 28 [("messageId", .str messageId)] reqId
  else do
  let _ ← respondOk sid 28 [("messageId", .str messageId)] reqId
  spawnPreview { room := roomId, messageId, url, cause := .requested message.editedAt }
  return false

/--
Ask for a preview of a link in an encrypted message, which the server cannot find by itself.
-/
def requestLinkPreview (sid : String) (d : Json) : Proto Bool := do
  let reqId := requestId d
  let some roomId := (d.getStr? "gameId").map Text.trim
    | respondError sid 28 "Missing gameId" reqId
  match validateRoomId roomId with
  | .error text => respondError sid 28 text reqId
  | .ok () =>
  let some messageId := trimmedStr? d "messageId"
    | respondError sid 28 "Missing messageId" reqId
  let some rawUrl := d.getStr? "url"
    | respondError sid 28 "Missing url" reqId
  let some url := sanitizePreviewUrl rawUrl
    | respondError sid 28 "Invalid url" reqId
  findPreviewTarget sid roomId messageId url reqId

end Previews

end Lqxp
