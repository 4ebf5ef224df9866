import Lqxp.Websocket.Protocol.System

/-!
This module contains what a single step of any handler can do: the edits of a room record with the
rights that they take, and the relation that every step of every handler satisfies.
-/

namespace Lqxp

/--
The ways in which a stored room record changes.
-/
inductive RoomEdit where
  | refresh (title : String) (members : List String)
  | setIcon (icon : RoomIcon)
  | setTitle (title : String)
  | setDescription (description : String)
  | setRole (target : String) (role : RoomRole)
  | transfer (target : String)
  | ban (target name : String)
  | unban (target : String)
  | timeout (target : String) (expiry : Nat)
  | unmute (target : String)
  | setChatLock (locked : Bool)
  | setModeratorPermissions (modPermissions : ModeratorPermissions)
  | setCallsEnabled (enabled : Bool)

namespace RoomEdit

def apply (actor : String) (room : RoomRecord) : RoomEdit → RoomRecord
  | .refresh title members => { room with title, members }
  | .setIcon icon => { room with icon := some icon }
  | .setTitle title => { room with title }
  | .setDescription description => { room with description }
  | .setRole target role =>
    { room with
      roles := if role = .member then room.roles.erase target else room.roles.insert target role }
  | .transfer target =>
    { room with
      ownerId := some target
      roles := (room.roles.insert target .administrator).insert actor .subAdministrator }
  | .ban target name => { room with banned := room.banned.insert target name }
  | .unban target => { room with banned := room.banned.erase target }
  | .timeout target expiry => { room with timeouts := room.timeouts.insert target expiry }
  | .unmute target => { room with timeouts := room.timeouts.erase target }
  | .setChatLock locked => { room with chatLocked := locked }
  | .setModeratorPermissions modPermissions => { room with modPermissions }
  | .setCallsEnabled enabled => { room with callsEnabled := enabled }

/--
The rights and the limits that an edit has been checked against.
-/
def Permitted (actor : String) (room : RoomRecord) : RoomEdit → Prop
  | .refresh title _ => title = room.title ∨ Text.trim room.title = ""
  | .setIcon _ | .setTitle _ => True
  | .setDescription _ | .setChatLock _ | .setModeratorPermissions _ | .setCallsEnabled _ | .unban _ =>
    room.kind = .community ∧ isRoomAdmin room actor
  | .setRole target role =>
    room.kind = .community ∧ isRoomAdmin room actor ∧ target ≠ actor ∧ role ≠ .administrator
      ∧ roleInRoom room target ≠ .administrator
      ∧ (role = .moderator → roleInRoom room target ≠ .moderator →
          countRole room .moderator < maxRoomModerators)
      ∧ (role = .subAdministrator → roleInRoom room target ≠ .subAdministrator →
          countRole room .subAdministrator < maxRoomSubAdmins)
  | .transfer target =>
    room.kind = .community ∧ room.ownerId = some actor
      ∧ (roleInRoom room target = .subAdministrator
        ∨ roleInRoom room target = .moderator
          ∧ countRole room .subAdministrator < maxRoomSubAdmins)
  | .ban target _ =>
    room.kind = .community ∧ target ≠ actor
      ∧ canModerate room (roleInRoom room actor) (roleInRoom room target) .ban
  | .timeout target _ =>
    room.kind = .community ∧ target ≠ actor
      ∧ canModerate room (roleInRoom room actor) (roleInRoom room target) .mute
  | .unmute target =>
    room.kind = .community
      ∧ canModerate room (roleInRoom room actor) (roleInRoom room target) .mute

end RoomEdit

namespace Memory

def actorId (g : Memory) : String := (g.actor.map (·.1)).getD ""

/--
Which edits a run may make: those of its operation, aimed at its target.
-/
def Makes (g : Memory) : RoomEdit → Prop
  | .refresh .. =>
    g.req.concernsRooms ∧ (∀ roomId icon, g.req ≠ .setIcon roomId icon)
      ∧ (g.req.op? = some .ban → g.banned.isSome)
  | .setIcon _ =>
    g.req.concernsRooms ∧ (∀ roomId, g.req ≠ .syncRoom roomId) ∧ g.req.op? ≠ some .ban
  | .setTitle _ => g.req.op? = some .roomTitle
  | .setDescription _ => g.req.op? = some .roomDescription
  | .setRole target _ => g.req.op? = some .memberRole ∧ g.target = some target
  | .transfer target => g.req.op? = some .transfer ∧ g.target = some target
  | .ban target _ => g.req.op? = some .ban ∧ g.target = some target ∧ g.banned = none
  | .unban target => g.req.op? = some .unban ∧ g.target = some target
  | .timeout target _ => g.req.op? = some .timeout ∧ g.target = some target
  | .unmute target => g.req.op? = some .unmute ∧ g.target = some target
  | .setChatLock _ => g.req.op? = some .chatLock
  | .setModeratorPermissions _ => g.req.op? = some .moderatorPermissions
  | .setCallsEnabled _ => g.req.op? = some .callsEnabled

/--
Whether the record that the run has read lets an account speak in a room.
-/
def MaySpeak (g : Memory) (roomId userId : String) : Prop :=
  ∃ snapshot, g.base = some (roomId, snapshot)
    ∧ ∀ room, snapshot = some room → room.kind = .community →
        ∃ now, g.now = some now ∧ canSpeak room userId now

/--
Which changes a run may make to the buffered messages of a room, at a moment of the state `s`.
-/
def MayChange (g : Memory) (e : Env) (s : AppState) (roomId : String) : MessageChange → Prop
  | .stored message =>
    g.req.op? = some .send ∧ g.actor = some (message.userId, message.username)
      ∧ message.username ≠ "" ∧ message.deleted = false ∧ g.MaySpeak roomId message.userId
  | .reacted messageId _ username =>
    ∃ userId checkedRoom,
      g.req.op? = some .react ∧ g.actor = some (userId, username)
        ∧ g.located = some (messageId, checkedRoom) ∧ g.MaySpeak checkedRoom userId
        ∧ hasMessage messageId (s.messages roomId)
  | .deleted messageId deletedBy byModerator =>
    ∃ sid d player message,
      g.req = .message sid .delete d ∧ trimmedStr? d "messageId" = some messageId
        ∧ g.actor = some (player.userId, player.username) ∧ deletedBy = player.username
        ∧ player.username ≠ "" ∧ findMessage messageId (s.messages roomId) = some message
        ∧ message.deleted = false
        ∧ canDeleteMessage (e.readRoom s roomId) message player = (true, byModerator)
  | .cleared _ => g.req.clears
  | .edited messageId _ _ _ _ =>
    ∃ sid d userId username message,
      g.req = .message sid .edit d ∧ trimmedStr? d "messageId" = some messageId
        ∧ g.actor = some (userId, username) ∧ username ≠ ""
        ∧ findMessage messageId (s.messages roomId) = some message
        ∧ message.deleted = false ∧ message.system = false
        ∧ isMessageAuthor message.userId message.username userId username
  | .decorated messageId _ =>
    (∃ n, g.req = .preview n)
      ∧ ∃ message, findMessage messageId (s.messages roomId) = some message ∧ message.deleted = false

end Memory

/--
Whether a payload confirms a request with the given operation code about a room.
-/
def isOkFor (op : Nat) (roomId : String) (payload : Json) : Bool :=
  isOk op payload && (payload.get? "d").bind (·.getStr? "gameId") = some roomId

/--
A ban is confirmed only after the record with the ban has been written, and a creation only after the
insertion of the record.
-/
structure Memory.Confirms (g : Memory) (payload : Json) : Prop where
  ban (roomId : String) : g.req.op? = some .ban → isOkFor 43 roomId payload → g.banned = some roomId
  create (roomId : String)
    : g.req.op? = some .create → isOkFor 40 roomId payload → g.created = some roomId

/--
What most steps leave alone: the records, the messages, who is in which room, and which accounts and
tokens there are.
-/
structure Keeps (s s' : AppState) : Prop where
  database : s'.database = s.database
  roomMessages : s'.roomMessages = s.roomMessages
  members (sid : String)
    : (s'.players.lookup sid).map (fun player =>
          (player.id, player.userId, player.username, player.rooms))
        = (s.players.lookup sid).map fun player =>
          (player.id, player.userId, player.username, player.rooms)
  accounts : s'.accounts = { s.accounts with users := s'.accounts.users }
  users (key : String)
    : (s'.accounts.users.lookup key).map (fun user => (user.id, user.disabled, user.banned))
        = (s.accounts.users.lookup key).map fun user => (user.id, user.disabled, user.banned)

theorem Keeps.refl (s : AppState) : Keeps s s := ⟨rfl, rfl, fun _ => rfl, rfl, fun _ => rfl⟩

/--
What a step of a handler can do, by its label. Every step of every handler is one of these.
-/
def Transition (g : Memory) (e : Env) (s : AppState) (l : Label) (s' : AppState) : Prop :=
  match l with
  | .quiet | .broadcast .. | .file _ => Keeps s s'
  | .clock now => s' = s ∧ now = e.now
  | .reply _ payload => s' = s ∧ g.Confirms payload
  | .actor userId username =>
    Keeps s s'
      ∧ ∃ sid player, g.req.sid? = some sid ∧ s.players.lookup sid = some player
          ∧ player.userId = userId ∧ player.username = username
  | .token tokenHash userId =>
    s' = s ∧ ∃ row, s.accounts.sessions.lookup tokenHash = some row ∧ row.userId = userId
  | .account userId =>
    s' = s ∧ ∃ tokenHash key user, g.token = some (tokenHash, key)
      ∧ s.accounts.users.lookup key = some user ∧ user.id = userId ∧ user.disabled = false
      ∧ user.banned = false
  | .target _ => s' = s ∧ g.evicting = none
  | .located messageId roomId => s' = s ∧ hasMessage messageId (s.messages roomId)
  | .connected sid =>
    s' = { s with players := s.players.insert sid { id := sid } } ∧ g.req = .connect sid
  | .disconnected sid => s' = { s with players := s.players.erase sid }
  | .bound sid userId =>
    g.req.op? = some .identify ∧ g.account = some userId
      ∧ ∃ f : PlayerSession → PlayerSession,
          (∀ player, (f player).id = player.id ∧ (f player).userId = userId
              ∧ (f player).rooms = player.rooms)
            ∧ s' = { s with players := s.players.modify sid f }
  | .joined sid roomId userId =>
    s' = { s with players := s.players.modify sid (·.enter roomId) }
      ∧ (∃ player, s.players.lookup sid = some player ∧ player.userId = userId)
      ∧ g.entering = none
  | .left sid roomId =>
    s' = { s with players := s.players.modify sid (·.exit roomId) }
      ∧ ∀ x, g.entering = some x → x.1 = sid ∧ x.2.1 = roomId
  | .removed userId roomId =>
    s' = { s with
      players := s.players.mapValues fun _ player =>
        if player.userId = userId then player.exit roomId else player }
      ∧ ∀ x, g.evicting = some x → x = (userId, roomId)
  | .emptied roomId =>
    s' = { s with
      players := s.players.mapValues fun _ player => player.exit roomId
      roomMessages := s.roomMessages.erase roomId }
      ∧ g.req.op? = some .deleteRoom
  | .read roomId result =>
    s' = s ∧ result = e.readRoom s roomId
  | .wrote roomId record =>
    s' = { s with database := s.database.insert roomId record }
      ∧ ∃ snapshot edit, g.base = some (roomId, snapshot) ∧ g.Makes edit
          ∧ edit.Permitted g.actorId (snapshot.getD (defaultRecord roomId))
          ∧ record = { edit.apply g.actorId (snapshot.getD (defaultRecord roomId)) with roomId }
  | .created roomId record =>
    s' = { s with database := s.database.insert roomId record }
      ∧ s.database.lookup roomId = none
      ∧ ∃ sid d, g.req = .message sid .create d ∧ record = newRoom d roomId g.actorId
  | .erased roomId =>
    s' = { s with database := s.database.erase roomId } ∧ g.req.op? = some .deleteRoom
  | .changed roomId change => s' = s.change roomId change ∧ g.MayChange e s roomId change

end Lqxp
