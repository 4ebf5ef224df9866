import Lqxp.Core.Models
import Lqxp.Core.Security
import Lqxp.Prog.Exec

/-!
This module contains the shared state of the server and the vocabulary of the handlers: what the
outside world supplies to a step and how a step is seen from outside.
-/

namespace Lqxp

structure PlayerSession where
  id : String
  userId : String := ""
  isAdmin : Bool := false
  badges : List String := []
  username : String := ""
  rooms : List String := []
  isVoiceChat : Bool := false
  callRoom : Option String := none
  callCamera : Bool := false
  callScreen : Bool := false
  callDeafened : Bool := false
  clientId : String := ""
  platform : String := "web"
  version : String := "unknown"
  lastMessageTimestamp : Option Nat := none
  isMobile : Option Bool := none
  isSecure : Option Bool := none
  mutedUsers : List String := []
  deleteMessagesOnLeave : Bool := false
  profile : UserProfile := {}
  status : UserPresenceStatus := .online
  identifiedAtMs : Nat := 0
  lastRevalidationMs : Nat := 0
  deriving DecidableEq

/--
Whether the session is in a call that is happening in `gameId`. A session without a known call room
counts as in call everywhere.
-/
def PlayerSession.isCallInRoom (player : PlayerSession) (gameId : String) : Bool :=
  player.isVoiceChat && player.callRoom.all (· = gameId)

def PlayerSession.enter (player : PlayerSession) (roomId : String) : PlayerSession :=
  if player.rooms.contains roomId then player else { player with rooms := player.rooms ++ [roomId] }

def PlayerSession.exit (player : PlayerSession) (roomId : String) : PlayerSession :=
  { player with rooms := player.rooms.filter (· ≠ roomId) }

def PlayerSession.hangUp (player : PlayerSession) : PlayerSession :=
  { player with
    isVoiceChat := false, callCamera := false, callScreen := false, callRoom := none, callDeafened := false }

structure StoredUser where
  id : String
  username : String
  profile : UserProfile := {}
  status : UserPresenceStatus := .online
  disabled : Bool := false
  banned : Bool := false
  createdAt : Nat := 0
  customBadges : List String := []
  deriving DecidableEq

structure SessionRow where
  userId : String
  expiresAt : Nat
  deriving DecidableEq

structure DefaultRoom where
  roomId : String
  roomKey : String
  title : String
  deriving DecidableEq

/--
The account tables: users under their id and sessions under the hash of their token.
-/
structure AccountDatabase where
  users : AssocMap String StoredUser := ∅
  sessions : AssocMap String SessionRow := ∅
  adminIds : List String := []
  defaultRoom : Option DefaultRoom := none
  tokenHash : String → String := id

/--
Why a preview task was spawned decides which messages it may still decorate.
-/
inductive PreviewCause where
  | sent
  | edited (editedAt : Nat)
  | requested (editedAt : Option Nat)
  deriving DecidableEq

structure PreviewTask where
  room : String
  messageId : String
  url : String
  cause : PreviewCause
  deriving DecidableEq

structure AppState where
  players : AssocMap String PlayerSession := ∅
  roomMessages : AssocMap String (List ChatMessageRecord) := ∅
  database : AssocMap String RoomRecord := ∅
  accounts : AccountDatabase := {}
  rateLimits : AssocMap String RateLimitBucket := ∅
  /-- The tasks spawned by the handlers and not yet picked up by the runtime. -/
  previewTasks : List PreviewTask := []
  uploadPublicBase : String := "/uploads"
  /-- The rooms whose calls are open to members although the record says otherwise. -/
  callAccessOverrides : List String := []
  /-- The feature flag for calls. -/
  callsEnabled : Bool := true
  /-- The names of the files in the upload directory. -/
  uploads : List String := []

/--
What the outside world supplies to one step.
-/
structure Env where
  now : Nat := 0
  /-- The database statement of the step fails. -/
  dbFails : Bool := false
  /-- Which of the matching entries an unordered collection yields first. -/
  pick : Nat := 0
  randomId : String := ""
  /-- The upload directory is full or the write fails. -/
  uploadFails : Bool := false
  removalFails : Bool := false
  fetch : String → Option LinkPreview := fun _ => none
  /-- Whether the queue of a session takes one more message. -/
  accepts : String → Bool := fun _ => true

def Env.calm : Env := {}

/--
One change of the buffered messages of a room.
-/
inductive MessageChange where
  | stored (message : ChatMessageRecord)
  | reacted (messageId emoji username : String)
  | deleted (messageId deletedBy : String) (byModerator : Bool)
  | cleared (username : String)
  | edited (messageId text : String) (profile : UserProfile) (encrypted : Option EncryptedPayload)
      (editedAt : Nat)
  | decorated (messageId : String) (preview : LinkPreview)

/--
One change of the upload directory.
-/
inductive FileChange where
  | stored (fileId : String)
  | removed (fileId : String)

/--
How a step of a handler is seen from outside. A step that changes neither the database, nor the
buffered messages, nor who is in which room, is `quiet` unless it sends or reveals something.
-/
inductive Label where
  | quiet
  | clock (now : Nat)
  | reply (sessionId : String) (payload : Json)
  | broadcast (recipients : List String) (payload : Json)
  /-- The user id and the username of the session that a request comes from. -/
  | actor (userId username : String)
  /-- The account that a session token has been issued for. -/
  | token (tokenHash userId : String)
  /-- The account of a token, when it may be used. -/
  | account (userId : String)
  /-- The account that a moderation request is aimed at. -/
  | target (userId : String)
  /-- The room in which a message was found. -/
  | located (messageId roomId : String)
  | connected (sessionId : String)
  | disconnected (sessionId : String)
  | bound (sessionId userId : String)
  | joined (sessionId roomId userId : String)
  | left (sessionId roomId : String)
  | removed (userId roomId : String)
  | emptied (roomId : String)
  | read (roomId : String) (result : Option RoomRecord)
  | wrote (roomId : String) (record : RoomRecord)
  | created (roomId : String) (record : RoomRecord)
  | erased (roomId : String)
  | changed (roomId : String) (change : MessageChange)
  | file (change : FileChange)

/--
A piece of a handler.
-/
abbrev Proto (α : Type) := Prog Env AppState Label α

section Ops

/--
A step that looks at the state and leaves everything as it is.
-/
def look (f : Env → AppState → α) : Proto α := .atom fun e s => (f e s, .quiet, s)

/--
The element that an unordered collection yields first.
-/
def pickFrom (e : Env) (l : List α) : Option α := l[e.pick % l.length]?

def getPlayer (sid : String) : Proto (Option PlayerSession) :=
  .atom fun _ s =>
    match s.players.lookup sid with
    | some player => (some player, .actor player.userId player.username, s)
    | none => (none, .quiet, s)

/--
A step under the write lock of the players that changes one session without moving it between rooms
or accounts.
-/
def updatePlayer (sid : String) (f : PlayerSession → PlayerSession) : Proto Unit :=
  .atom fun _ s => ((), .quiet, { s with players := s.players.modify sid f })

def hitRateLimit (key : String) (limit windowMs : Nat) : Proto Bool :=
  .atom fun e s =>
    let (hit, rateLimits) := rateLimitHit e.now key limit windowMs s.rateLimits
    (hit, .quiet, { s with rateLimits })

/--
Remove a file from the upload directory. Nobody hears of a failure.
-/
def removeUploadedFile (fileId : String) : Proto Unit :=
  .atom fun e s =>
    if e.removalFails || !s.uploads.contains fileId then
      ((), .quiet, s)
    else
      ((), .file (.removed fileId), { s with uploads := s.uploads.filter (· ≠ fileId) })

def nowMs : Proto Nat := .atom fun e s => (e.now, .clock e.now, s)

/--
Queue a message for one session, if it is still connected.
-/
def respondToSender (sid : String) (payload : Json) : Proto Unit :=
  .atom fun _ s =>
    match s.players.lookup sid with
    | some _ => ((), .reply sid payload, s)
    | none => ((), .quiet, s)

def broadcastToRoom (gameId : String) (payload : Json) : Proto Unit :=
  .atom fun _ s =>
    let recipients := s.players.values.filter fun player => player.rooms.contains gameId
    ((), .broadcast (recipients.map (·.id)) payload, s)

end Ops

end Lqxp
