import Mathlib.Data.List.Sort
import Lqxp.Core.Presence

/-!
This module contains the buffered messages of the rooms and everything that may happen to a buffer.
-/

namespace Lqxp

def maxRoomMessages : Nat := 150

def hasMessage (messageId : String) (messages : List ChatMessageRecord) : Bool :=
  messages.any (·.messageId = messageId)

def findMessage (messageId : String) (messages : List ChatMessageRecord) : Option ChatMessageRecord :=
  messages.find? (·.messageId = messageId)

def modifyMessage (messageId : String) (f : ChatMessageRecord → ChatMessageRecord)
    : List ChatMessageRecord → List ChatMessageRecord
  | [] => []
  | message :: messages =>
    if message.messageId = messageId then
      f message :: messages
    else
      message :: modifyMessage messageId f messages

/--
Append a message and forget the oldest ones beyond the limit.
-/
def pushMessage (message : ChatMessageRecord) (messages : List ChatMessageRecord)
    : List ChatMessageRecord :=
  let messages := messages ++ [message]
  messages.drop (messages.length - maxRoomMessages)

def MessageReaction.toggle (reaction : MessageReaction) (username : String) : MessageReaction :=
  let users :=
    if reaction.users.contains username then
      reaction.users.filter (· ≠ username)
    else
      (reaction.users ++ [username]).insertionSort (· ≤ ·)
  { reaction with users, count := users.length }

def toggleReactionInMessage (emoji username : String) (message : ChatMessageRecord)
    : ChatMessageRecord :=
  let index := message.reactions.findIdx (·.emoji = emoji)
  match message.reactions[index]? with
  | some reaction =>
    let toggled := reaction.toggle username
    if toggled.count = 0 then
      { message with reactions := message.reactions.eraseIdx index }
    else
      { message with reactions := message.reactions.set index toggled }
  | none =>
    let reactions := message.reactions ++ [{ emoji, users := [username], count := 1 }]
    { message with reactions := reactions.insertionSort (·.emoji ≤ ·.emoji) }

def ChatMessageRecord.clear (message : ChatMessageRecord) : ChatMessageRecord :=
  { message with
    text := "", attachment := none, encrypted := none, preview := none, reactions := []
    deleted := true }

def MessageChange.apply : MessageChange → List ChatMessageRecord → List ChatMessageRecord
  | .stored message => pushMessage message
  | .reacted messageId emoji username =>
    modifyMessage messageId (toggleReactionInMessage emoji username)
  | .deleted messageId deletedBy byModerator =>
    modifyMessage messageId fun message =>
      { message.clear with editedAt := none, deletedBy, deletedByModerator := byModerator }
  | .cleared username =>
    List.map fun message =>
      if message.deleted || message.username ≠ username then message else message.clear
  | .edited messageId text profile encrypted editedAt =>
    modifyMessage messageId fun message =>
      { message with
        text, profile, attachment := none, encrypted, preview := none, editedAt := some editedAt }
  | .decorated messageId preview =>
    modifyMessage messageId fun message => { message with preview := some preview }

def AppState.messages (s : AppState) (roomId : String) : List ChatMessageRecord :=
  (s.roomMessages.lookup roomId).getD []

def AppState.change (s : AppState) (roomId : String) (change : MessageChange) : AppState :=
  { s with roomMessages := s.roomMessages.insert roomId (change.apply (s.messages roomId)) }

/--
The rooms whose buffer has a message with the given id.
-/
def AppState.roomsWithMessage (s : AppState) (messageId : String) : List String :=
  (s.roomMessages.entries.filter fun x => hasMessage messageId x.2).map (·.1)

end Lqxp
