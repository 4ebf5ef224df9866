import Lqxp.Prog.Emits
import Lqxp.Websocket.Protocol.Impl.Sessions

/-!
This module contains the pieces of the handlers that neither look the sender up, nor take a session out of
a room, nor change messages.
-/

namespace Lqxp

def Label.idle : Label → Bool
  | .actor .. | .left .. | .disconnected _ | .changed .. => false
  | _ => true

/--
All steps of a piece are idle.
-/
abbrev Idle (p : Proto α) : Prop := p.Emits fun l => l.idle

namespace Idle

theorem pure (a : α) : Idle (pure a) := Prog.Emits.pure a

theorem bind {p : Proto α} {f : α → Proto β} (hp : Idle p) (hf : ∀ a, Idle (f a)) : Idle (p >>= f) :=
  Prog.Emits.bind hp hf

theorem look (f : Env → AppState → α) : Idle (look f) := .atom fun _ _ => rfl

theorem nowMs : Idle nowMs := .atom fun _ _ => rfl

theorem hitRateLimit (key : String) (limit windowMs : Nat) : Idle (hitRateLimit key limit windowMs) :=
  .atom fun _ _ => rfl

theorem spawnPreview (task : PreviewTask) : Idle (spawnPreview task) := .atom fun _ _ => rfl

section Replies

theorem broadcastToRoom (gameId : String) (payload : Json) : Idle (broadcastToRoom gameId payload) :=
  .atom fun _ _ => rfl

theorem respondToSender (sid : String) (payload : Json) : Idle (respondToSender sid payload) := by
  refine .atom fun e s => ?_
  split
  . rfl
  . rfl

theorem respondError (sid : String) (op : Nat) (text : String) (reqId : Option String)
    : Idle (respondError sid op text reqId) :=
  .bind (.respondToSender _ _) fun _ => .pure _

theorem respondOk (sid : String) (op : Nat) (d : List (String × Json)) (reqId : Option String)
    : Idle (respondOk sid op d reqId) :=
  .bind (.respondToSender _ _) fun _ => .pure _

theorem broadcastSyncPeerEvent (userId event clientId platform : String) (exclude : Option String)
    : Idle (broadcastSyncPeerEvent userId event clientId platform exclude) := by
  unfold Lqxp.broadcastSyncPeerEvent
  split
  . exact .pure _
  . exact .atom fun _ _ => rfl

theorem announceCleared (gameId deletedBy : String) (deletedAt : Nat) (ids : List String)
    : Idle (announceCleared gameId deletedBy deletedAt ids) := by
  unfold Lqxp.announceCleared
  split
  . exact .pure _
  . exact .bind (.broadcastToRoom _ _) fun _ => .pure _

end Replies

theorem authenticateToken (token : String) : Idle (authenticateToken token) := by
  have hsession : Idle (sessionUserId token) := by
    refine .atom fun e s => ?_
    split
    . rfl
    . dsimp only
      split
      . split
        . rfl
        . rfl
      . rfl
  have huser (userId : String) : Idle (userById userId) := by
    refine .atom fun e s => ?_
    split
    . rfl
    . split
      . dsimp only
        split
        . rfl
        . rfl
      . rfl
  refine .bind hsession fun session => ?_
  split
  . exact .pure _
  . exact .pure _
  . refine .bind (huser _) fun user => ?_
    split
    . exact .pure _
    . exact .pure _
    . split
      . exact .pure _
      . exact .pure _

section Records

theorem roomRecord (roomId : String) : Idle (roomRecord roomId) := .atom fun _ _ => rfl

theorem setRoomRecord (roomId : String) (room : RoomRecord) : Idle (setRoomRecord roomId room) := by
  refine .atom fun e s => ?_
  split
  . rfl
  . rfl

theorem syncRoomRecord (roomId : String) : Idle (syncRoomRecord roomId) := by
  refine .bind (.look _) fun usernames => .bind (.roomRecord _) fun previous => ?_
  refine .bind (.setRoomRecord _ _) fun stored => ?_
  split
  . exact .pure _
  . exact .pure _

theorem recordOrRoster (roomId : String) (viewer : Option String) : Idle (recordOrRoster roomId viewer) :=
  .bind (.roomRecord _) fun _ => .bind (.look _) fun _ => .pure _

theorem isSilenced (roomId userId : String) : Idle (isSilenced roomId userId) := by
  refine .bind (.roomRecord _) fun room => ?_
  split
  . exact .bind .nowMs fun _ => .pure _
  . exact .pure _

theorem announceLeft (player : PlayerSession) (gameId : String) : Idle (announceLeft player gameId) := by
  unfold Lqxp.announceLeft
  split
  . exact .pure _
  . exact .bind (.roomRecord _) fun _ => .broadcastToRoom _ _

theorem announceHungUp (player : PlayerSession) (gameId : String)
    : Idle (announceHungUp player gameId) := by
  unfold Lqxp.announceHungUp
  split
  . exact .pure _
  . exact .broadcastToRoom _ _

end Records

theorem storeUploadedBytes (extension : String) (bytes : List UInt8) (mimeType : String)
    : Idle (storeUploadedBytes extension bytes mimeType) := by
  refine .atom fun e s => ?_
  split
  . rfl
  . rfl

theorem parseAttachment (raw : Option Json) : Idle (parseAttachment raw) := by
  unfold Lqxp.parseAttachment
  split
  . split
    . exact .pure _
    . refine .bind (.storeUploadedBytes _ _ _) fun stored => ?_
      split
      . exact .pure _
      . exact .pure _
  . exact .pure _

end Idle

end Lqxp
