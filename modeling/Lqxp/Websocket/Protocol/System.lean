import Lqxp.Services.Room

/-!
This module contains the server as a system of concurrent request handlers.
-/

namespace Lqxp

/--
The operations of the protocol.
-/
inductive Op where
  | identify
  | join
  | leave
  | send
  | history
  | react
  | delete
  | linkPreview
  | edit
  | roomIcon
  | roomTitle
  | create
  | roomDescription
  | memberRole
  | ban
  | unban
  | kick
  | timeout
  | transfer
  | chatLock
  | moderatorPermissions
  | callsEnabled
  | unmute
  | deleteRoom
  deriving DecidableEq

/--
The operations that are about the buffered messages only.
-/
def Op.onMessages : Op → Bool
  | .send | .history | .react | .delete | .linkPreview | .edit => true
  | _ => false

def Op.handler : Op → String → Json → Proto Bool
  | .identify => identifyPlayer
  | .join => joinGame
  | .leave => leaveGame
  | .send => sendChatMessage
  | .history => sendRoomHistory
  | .react => toggleMessageReaction
  | .delete => deleteMessage
  | .linkPreview => requestLinkPreview
  | .edit => editMessage
  | .roomIcon => uploadRoomIcon
  | .roomTitle => updateRoomTitle
  | .create => createRoom
  | .roomDescription => updateRoomDescription
  | .memberRole => setMemberRole
  | .ban => banMember
  | .unban => unbanMember
  | .kick => kickMember
  | .timeout => timeoutMember
  | .transfer => transferOwnership
  | .chatLock => setChatLock
  | .moderatorPermissions => setModeratorPermissions
  | .callsEnabled => setCallsEnabled
  | .unmute => unmuteMember
  | .deleteRoom => deleteRoomOp

/--
What sets a handler going.
-/
inductive Request where
  | connect (sid : String)
  | disconnect (sid : String)
  | message (sid : String) (op : Op) (d : Json)
  | httpIcon (userId roomId : String) (file : UploadedFile)
  /-- The runtime picks up the spawned task number `n`. -/
  | preview (n : Nat)
  | clearMessages (roomId username : String)
  | syncRoom (roomId : String)
  | setIcon (roomId : String) (icon : RoomIcon)

def Request.handle : Request → Proto Unit
  | .connect sid => do let _ ← registerConnection sid
  | .disconnect sid => disconnectPlayer sid
  | .message sid op d => do let _ ← op.handler sid d
  | .httpIcon userId roomId file => do let _ ← Http.uploadRoomIcon userId roomId file
  | .preview n => do let _ ← runPreviewTask n
  | .clearMessages roomId username => do
    let _ ← deleteUserMessagesInRoomAndBroadcast roomId username
  | .syncRoom roomId => do let _ ← syncRoomRecord roomId
  | .setIcon roomId icon => do let _ ← setRoomIcon roomId icon

def Request.sid? : Request → Option String
  | .connect sid => some sid
  | .disconnect sid => some sid
  | .message sid _ _ => some sid
  | _ => none

def Request.op? : Request → Option Op
  | .message _ op _ => some op
  | _ => none

/--
Whether the handler may do more than change single messages.
-/
def Request.concernsRooms (req : Request) : Bool := req.op?.all fun op => !op.onMessages

/--
Whether the handler may clear the messages of a user.
-/
def Request.clears : Request → Bool
  | .disconnect _ | .message _ .leave _ | .clearMessages .. => true
  | _ => false

/--
What a run of a handler has seen and done so far.
-/
structure Memory where
  req : Request
  now : Option Nat := none
  actor : Option (String × String) := none
  /-- The token that the run has looked up, and the account that it has been issued for. -/
  token : Option (String × String) := none
  account : Option String := none
  target : Option String := none
  located : Option (String × String) := none
  /-- The room record that the run works on: the last one that it read or wrote or, once it has created
  a room, the record of that room. -/
  base : Option (String × Option RoomRecord) := none
  created : Option String := none
  /-- The room in whose record the run has banned its target. -/
  banned : Option String := none
  /-- The session, room and account of a join that has not been checked yet. -/
  entering : Option (String × String × String) := none
  /-- The account and room of a ban whose sessions are still in the room. -/
  evicting : Option (String × String) := none

namespace Memory

/--
The accounts that a write of the run adds to those banned in a room.
-/
def bansTarget (g : Memory) (record : RoomRecord) : Option String :=
  if g.req.op? = some .ban then g.target.filter fun t => (record.banned.lookup t).isSome else none

def next (g : Memory) : Label → Memory
  | .clock now => { g with now := some now }
  | .actor userId username => { g with actor := some (userId, username) }
  | .token tokenHash userId => { g with token := some (tokenHash, userId), account := none }
  | .account userId => { g with account := some userId }
  | .target userId => { g with target := some userId, banned := none }
  | .located messageId roomId => { g with located := some (messageId, roomId) }
  | .joined sid roomId userId => { g with entering := some (sid, roomId, userId) }
  | .left .. => { g with entering := none }
  | .removed .. => { g with evicting := none }
  | .read roomId result =>
    let entering := g.entering.filter fun x => x.2.1 ≠ roomId || result.any (·.bans x.2.2)
    { g with base := if g.created.isSome then g.base else some (roomId, result), entering }
  | .wrote roomId record =>
    match g.bansTarget record with
    | some target =>
      { g with
        base := some (roomId, some record), banned := some roomId
        evicting := if g.banned.isNone then some (target, roomId) else g.evicting }
    | none => { g with base := some (roomId, some record) }
  | .created roomId record => { g with base := some (roomId, some record), created := some roomId }
  | .erased _ => { g with base := none }
  | _ => g

end Memory

def server : Prog.System Request Env AppState Label Memory Unit where
  handle := Request.handle
  start req := { req }
  next := Memory.next

abbrev ServerPool := Prog.Pool Env AppState Label Memory Unit

abbrev ServerEvent := Prog.Event Request Env Label Memory

/--
A server that nobody has sent a request yet, with the given sessions, records and buffers.
-/
def idleServer (players : List PlayerSession) (records : List RoomRecord)
    (buffers : List (String × List ChatMessageRecord)) : ServerPool where
  state :=
    { players := players.foldr (fun player players => players.insert player.id player) ∅
      database := records.foldr (fun room rooms => rooms.insert room.roomId room) ∅
      roomMessages := buffers.foldr (fun x buffers => buffers.insert x.1 x.2) ∅ }
  threads := []

end Lqxp
