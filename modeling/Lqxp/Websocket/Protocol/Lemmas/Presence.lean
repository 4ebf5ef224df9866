import Lqxp.Websocket.Protocol.Impl.Calls
import Lqxp.Websocket.Protocol.Impl.Profile
import Lqxp.Websocket.Protocol.Lemmas.Traces

/-!
This module contains what the handlers that concern presence and calls do to the sessions: which of their
pieces leave the sessions alone, and the one change that each of them makes.
-/

namespace Lqxp

/--
A piece of a handler that leaves the sessions as they are.
-/
abbrev KeepsPlayers (p : Proto α) : Prop := p.Preserves AppState.players

namespace KeepsPlayers

theorem pure (a : α) : KeepsPlayers (pure a) := Prog.Preserves.pure a

theorem bind {p : Proto α} {f : α → Proto β} (hp : KeepsPlayers p) (hf : ∀ a, KeepsPlayers (f a))
    : KeepsPlayers (p >>= f) :=
  Prog.Preserves.bind hp hf

theorem look (f : Env → AppState → α) : KeepsPlayers (look f) := .atom fun _ _ => rfl

theorem nowMs : KeepsPlayers nowMs := .atom fun _ _ => rfl

theorem hitRateLimit (key : String) (limit windowMs : Nat) : KeepsPlayers (hitRateLimit key limit windowMs) :=
  .atom fun _ _ => rfl

theorem removeIconFile (icon : Option RoomIcon) : KeepsPlayers (removeIconFile icon) := by
  cases icon with
  | none => exact .pure _
  | some icon =>
    refine .atom fun e s => ?_
    split
    . rfl
    . rfl

theorem storeUploadedBytes (extension : String) (bytes : List UInt8) (mimeType : String)
    : KeepsPlayers (storeUploadedBytes extension bytes mimeType) := by
  refine .atom fun e s => ?_
  split
  . rfl
  . rfl

section Replies

theorem broadcastToRoom (gameId : String) (payload : Json) : KeepsPlayers (broadcastToRoom gameId payload) :=
  .atom fun _ _ => rfl

theorem respondToSender (sid : String) (payload : Json) : KeepsPlayers (respondToSender sid payload) := by
  intro s tr u s' h
  obtain ⟨e, -, rfl⟩ := trace_respondToSender h
  rfl

theorem respondError (sid : String) (op : Nat) (text : String) (reqId : Option String)
    : KeepsPlayers (respondError sid op text reqId) :=
  .bind (.respondToSender _ _) fun _ => .pure _

theorem respondOk (sid : String) (op : Nat) (d : List (String × Json)) (reqId : Option String)
    : KeepsPlayers (respondOk sid op d reqId) :=
  .bind (.respondToSender _ _) fun _ => .pure _

theorem broadcastSyncPeerEvent (userId event clientId platform : String) (exclude : Option String)
    : KeepsPlayers (broadcastSyncPeerEvent userId event clientId platform exclude) := by
  unfold Lqxp.broadcastSyncPeerEvent
  split
  . exact .pure _
  . exact .atom fun _ _ => rfl

end Replies

section Sessions

theorem getPlayer (sid : String) : KeepsPlayers (getPlayer sid) := by
  refine .atom fun e s => ?_
  split
  . rfl
  . rfl

theorem sessionIdentity (sid : String) : KeepsPlayers (sessionIdentity sid) := by
  refine .bind (.getPlayer sid) fun player => ?_
  split
  . split
    . exact .pure _
    . exact .pure _
  . exact .pure _

theorem resolveTarget (d : Json) : KeepsPlayers (resolveTarget d) := by
  refine .atom fun e s => ?_
  split
  . rfl
  . split
    . split
      . rfl
      . rfl
    . rfl

theorem authenticateToken (token : String) : KeepsPlayers (authenticateToken token) := by
  have hsession : KeepsPlayers (sessionUserId token) := by
    refine .atom fun e s => ?_
    split
    . rfl
    . dsimp only
      split
      . split
        . rfl
        . rfl
      . rfl
  have huser (userId : String) : KeepsPlayers (userById userId) := by
    refine .atom fun e s => ?_
    split
    . rfl
    . split
      . rfl
      . rfl
  refine .bind hsession fun session => ?_
  split
  . exact .pure _
  . exact .pure _
  . refine .bind (huser _) fun user => ?_
    split
    . exact .pure _
    . exact .pure _
    . split
      . exact .pure _
      . exact .pure _

theorem updateStatus (userId : String) (status : UserPresenceStatus)
    : KeepsPlayers (updateStatus userId status) := by
  refine .atom fun e s => ?_
  split
  . rfl
  . rfl

theorem updateProfile (userId : String) (profile : UserProfile)
    : KeepsPlayers (updateProfile userId profile) := by
  refine .atom fun e s => ?_
  split
  . rfl
  . rfl

end Sessions

section Records

theorem roomRecord (roomId : String) : KeepsPlayers (roomRecord roomId) := .atom fun _ _ => rfl

theorem setRoomRecord (roomId : String) (room : RoomRecord) : KeepsPlayers (setRoomRecord roomId room) := by
  refine .atom fun e s => ?_
  split
  . rfl
  . rfl

theorem deleteRoom (roomId : String) : KeepsPlayers (deleteRoom roomId) := by
  refine .atom fun e s => ?_
  split
  . rfl
  . rfl

theorem syncRoomRecord (roomId : String) : KeepsPlayers (syncRoomRecord roomId) := by
  refine .bind (.look _) fun usernames => .bind (.roomRecord _) fun previous => ?_
  refine .bind (.setRoomRecord _ _) fun stored => ?_
  split
  . exact .pure _
  . exact .pure _

theorem recordOrRoster (roomId : String) (viewer : Option String)
    : KeepsPlayers (recordOrRoster roomId viewer) :=
  .bind (.roomRecord _) fun _ => .bind (.look _) fun _ => .pure _

theorem dispatchRoomHistory (sid roomId : String) (reqId : Option String)
    : KeepsPlayers (dispatchRoomHistory sid roomId reqId) :=
  .bind (.look _) fun _ => .bind (.look _) fun _ => .respondToSender _ _

theorem clearOnLeave (roomId username : String) (shouldClearMessages : Bool)
    : KeepsPlayers (clearOnLeave roomId username shouldClearMessages) := by
  unfold Lqxp.clearOnLeave
  split
  . refine .bind .nowMs fun deletedAt => .bind (.atom fun e s => ?_) fun ids => ?_
    . split
      . rfl
      . rfl
    . unfold announceCleared
      split
      . exact .pure _
      . exact .bind (.broadcastToRoom _ _) fun _ => .pure _
  . exact .pure _

end Records

section Disconnect

theorem announceLeft (player : PlayerSession) (gameId : String) : KeepsPlayers (announceLeft player gameId) := by
  unfold Lqxp.announceLeft
  split
  . exact .pure _
  . exact .bind (.roomRecord _) fun _ => .broadcastToRoom _ _

theorem announceHungUp (player : PlayerSession) (gameId : String)
    : KeepsPlayers (announceHungUp player gameId) := by
  unfold Lqxp.announceHungUp
  split
  . exact .pure _
  . exact .broadcastToRoom _ _

theorem leaveBehind (player : PlayerSession) (gameId : String) : KeepsPlayers (leaveBehind player gameId) :=
  .bind (.syncRoomRecord _) fun _ => .bind (.announceLeft _ _) fun _ =>
    .bind (.clearOnLeave _ _ _) fun _ => .announceHungUp _ _

theorem leaveBehindAll (player : PlayerSession) (rooms : List String)
    : KeepsPlayers (leaveBehindAll player rooms) := by
  induction rooms with
  | nil => exact .pure _
  | cons gameId rooms ih => exact .bind (.leaveBehind _ _) fun _ => ih

end Disconnect

section Settings

theorem parseProfileImage (raw : Option Json) (maxBytes : Nat)
    : KeepsPlayers (parseProfileImage raw maxBytes) := by
  unfold Lqxp.parseProfileImage
  split
  . split
    . exact .pure _
    . refine .bind (.storeUploadedBytes _ _ _) fun stored => ?_
      split
      . exact .pure _
      . exact .pure _
  . exact .pure _

theorem parseImageField (raw : Json) (key : String) (maxBytes : Nat) (current : Option ProfileImage)
    : KeepsPlayers (parseImageField raw key maxBytes current) := by
  unfold Lqxp.parseImageField
  split
  . exact .parseProfileImage _ _
  . exact .pure _

theorem parseUserProfile (current : UserProfile) (raw : Option Json)
    : KeepsPlayers (parseUserProfile current raw) := by
  unfold Lqxp.parseUserProfile
  split
  . split
    . exact .pure _
    . split
      . exact .pure _
      . refine .bind (.parseImageField _ _ _ _) fun avatar => ?_
        split
        . exact .pure _
        . refine .bind (.parseImageField _ _ _ _) fun banner => ?_
          split
          . exact .pure _
          . split
            . exact .pure _
            . exact .pure _
  . exact .pure _

theorem persistProfile (player : PlayerSession) (changed : Bool)
    : KeepsPlayers (persistProfile player changed) := by
  unfold Lqxp.persistProfile
  split
  . exact .bind (.updateProfile _ _) fun _ => .pure _
  . exact .pure _

theorem persistStatus (player : PlayerSession) (changed : Bool)
    : KeepsPlayers (persistStatus player changed) := by
  unfold Lqxp.persistStatus
  split
  . exact .bind (.updateStatus _ _) fun _ => .pure _
  . exact .pure _

theorem announceProfileAll (player : PlayerSession) (rooms : List String)
    : KeepsPlayers (announceProfileAll player rooms) := by
  induction rooms with
  | nil => exact .pure _
  | cons gameId rooms ih =>
    exact .bind (.bind (.look _) fun _ => .broadcastToRoom _ _) fun _ => ih

theorem announceStatusAll (player : PlayerSession) (wasVoiceChat : Bool) (rooms : List String)
    : KeepsPlayers (announceStatusAll player wasVoiceChat rooms) := by
  induction rooms with
  | nil => exact .pure _
  | cons gameId rooms ih =>
    refine .bind (.bind (.look _) fun _ => .bind (.broadcastToRoom _ _) fun _ => ?_) fun _ => ih
    split
    . exact .broadcastToRoom _ _
    . exact .pure _

theorem completeSettings (sid : String) (d : Json) (profile : Option UserProfile)
    (status : Option UserPresenceStatus) (old player : PlayerSession)
    : KeepsPlayers (completeSettings sid d profile status old player) := by
  refine .bind (.persistProfile _ _) fun _ => .bind (.persistStatus _ _) fun _ => ?_
  refine .bind (.respondOk _ _ _ _) fun _ => .bind (.announceProfileAll _ _) fun _ => ?_
  refine .bind (.announceStatusAll _ _ _) fun _ => .bind ?_ fun _ => .pure _
  unfold announceSyncPeer
  split
  . exact .broadcastSyncPeerEvent _ _ _ _ _
  . split
    . exact .broadcastSyncPeerEvent _ _ _ _ _
    . exact .pure _

end Settings

section Calls

theorem callsSwitchedOff (isVoiceChat : Bool) : KeepsPlayers (callsSwitchedOff isVoiceChat) := by
  unfold Lqxp.callsSwitchedOff
  split
  . exact .bind (.look _) fun _ => .pure _
  . exact .pure _

theorem hitVoiceJoin (sid userId : String) (isJoin : Bool) : KeepsPlayers (hitVoiceJoin sid userId isJoin) := by
  unfold Lqxp.hitVoiceJoin
  split
  . exact .hitRateLimit _ _ _
  . exact .pure _

theorem voiceRefused (userId : String) (callRoom : Option String)
    : KeepsPlayers (voiceRefused userId callRoom) := by
  unfold Lqxp.voiceRefused
  split
  . refine .bind (.roomRecord _) fun room => ?_
    split
    . exact .bind (.look _) fun _ => .pure _
    . exact .pure _
  . exact .pure _

theorem closeCallAccess (userId : String) (callRoom : Option String)
    : KeepsPlayers (closeCallAccess userId callRoom) := by
  unfold Lqxp.closeCallAccess
  split
  . refine .bind (.roomRecord _) fun room => ?_
    split
    . split
      . exact .bind (.atom fun _ _ => rfl) fun _ => .broadcastToRoom _ _
      . exact .pure _
    . exact .pure _
  . exact .pure _

theorem broadcastVoice (isVoiceChat : Bool) (media : List (String × Json)) (player : PlayerSession)
    (rooms : List String) : KeepsPlayers (broadcastVoice isVoiceChat media player rooms) := by
  induction rooms with
  | nil => exact .pure _
  | cons gameId rooms ih => exact .bind (.broadcastToRoom _ _) fun _ => ih

theorem broadcastEvicted (stale : List PlayerSession) : KeepsPlayers (broadcastEvicted stale) := by
  induction stale with
  | nil => exact .pure _
  | cons player stale ih => exact .bind (.broadcastVoice _ _ _ _) fun _ => ih

theorem broadcastCallMedia (isVoiceChat : Bool) (media : Json) (player : PlayerSession)
    (rooms : List String) : KeepsPlayers (broadcastCallMedia isVoiceChat media player rooms) := by
  induction rooms with
  | nil => exact .pure _
  | cons gameId rooms ih => exact .bind (.broadcastToRoom _ _) fun _ => ih

end Calls

end KeepsPlayers

/--
A handler that changes the sessions at most once, along `R`.
-/
abbrev MovesPlayers
    (R : AssocMap String PlayerSession → Label → AssocMap String PlayerSession → Prop) (p : Proto α) : Prop :=
  p.MovesOnce AppState.players R

namespace MovesPlayers

variable {R : AssocMap String PlayerSession → Label → AssocMap String PlayerSession → Prop}

theorem keep {p : Proto α} (hp : KeepsPlayers p) : MovesPlayers R p := Prog.MovesOnce.of_preserves hp

theorem respondError (sid : String) (op : Nat) (text : String) (reqId : Option String)
    : MovesPlayers R (respondError sid op text reqId) := .keep (.respondError _ _ _ _)

theorem bind {p : Proto α} {f : α → Proto β} (hp : KeepsPlayers p) (hf : ∀ a, MovesPlayers R (f a))
    : MovesPlayers R (p >>= f) :=
  Prog.MovesOnce.bind hp hf

theorem bind_keep {p : Proto α} {f : α → Proto β} (hp : MovesPlayers R p) (hf : ∀ a, KeepsPlayers (f a))
    : MovesPlayers R (p >>= f) :=
  Prog.MovesOnce.bind_preserves hp hf

theorem registerConnection (sid : String)
    : MovesPlayers (fun m l m' => l = .connected sid ∧ m' = m.insert sid { id := sid })
        (registerConnection sid) := by
  refine .atom fun e s => ?_
  split
  . exact .inl rfl
  . exact .inr ⟨rfl, rfl⟩

theorem disconnectPlayer (sid : String)
    : MovesPlayers (fun m l m' => l = .disconnected sid ∧ m' = m.erase sid) (disconnectPlayer sid) := by
  refine .bind_keep (.atom fun e s => ?_) fun removed => ?_
  . split
    . exact .inr ⟨rfl, rfl⟩
    . exact .inl rfl
  . split
    . split
      . exact .bind (.broadcastSyncPeerEvent _ _ _ _ _) fun _ => .leaveBehindAll _ _
      . exact .leaveBehindAll _ _
    . exact .pure _

theorem leaveGame (sid : String) (d : Json)
    : MovesPlayers (fun m l m' => ∃ roomId, l = .left sid roomId ∧ m' = m.modify sid (·.exit roomId))
        (leaveGame sid d) := by
  refine .bind (.hitRateLimit _ _ _) fun limited => ?_
  split
  . exact .respondError _ _ _ _
  . split
    . split
      . exact .respondError _ _ _ _
      . refine .bind_keep (.atom fun e s => ?_) fun quit => ?_
        . split
          . exact .inl rfl
          . split
            . exact .inr ⟨_, rfl, rfl⟩
            . exact .inl rfl
        . split
          . exact .respondError _ _ _ _
          . refine .bind (.syncRoomRecord _) fun _ => .bind (.look _) fun _ => ?_
            refine .bind (.recordOrRoster _ _) fun _ => .bind (.broadcastToRoom _ _) fun _ => ?_
            exact .bind (.clearOnLeave _ _ _) fun _ => .respondOk _ _ _ _
    . exact .respondError _ _ _ _

def requestedStatus (d : Json) : Option UserPresenceStatus :=
  ((d.get? "status").or (d.get? "presenceStatus")).map parseUserStatus

theorem updateClientSettings (sid : String) (d : Json)
    : MovesPlayers (fun m _ m' => ∃ profile,
          m' = m.modify sid (PlayerSession.applySettings d profile (requestedStatus d)))
        (updateClientSettings sid d) := by
  refine .bind (.hitRateLimit _ _ _) fun limited => ?_
  split
  . exact .respondError _ _ _ _
  . refine .bind (.look _) fun current => .bind (.parseUserProfile _ _) fun parsed => ?_
    split
    . exact .respondError _ _ _ _
    . refine .bind_keep (.atom fun e s => ?_) fun changed => ?_
      . split
        . exact .inl rfl
        . exact .inr ⟨_, rfl⟩
      . split
        . exact .respondError _ _ _ _
        . exact .completeSettings _ _ _ _ _ _

theorem communityRequest {op : Nat} {key : String} {limit windowMs : Nat} {notCommunity sid : String}
    {d : Json} {body : String × String → String → RoomRecord → Proto Bool}
    (hbody : ∀ actor roomId room, MovesPlayers R (body actor roomId room))
    : MovesPlayers R (communityRequest op key limit windowMs notCommunity sid d body) := by
  refine .bind (.hitRateLimit _ _ _) fun limited => ?_
  split
  . exact .respondError _ _ _ _
  . refine .bind (.sessionIdentity _) fun actor => ?_
    split
    . refine .bind (.look _) fun resolved => ?_
      split
      . exact .respondError _ _ _ _
      . refine .bind (.roomRecord _) fun room => ?_
        split
        . split
          . exact .respondError _ _ _ _
          . exact hbody _ _ _
        . exact .respondError _ _ _ _
    . exact .respondError _ _ _ _

/--
What taking an account out of a room does to the sessions.
-/
def Removes (m : AssocMap String PlayerSession) (l : Label) (m' : AssocMap String PlayerSession) : Prop :=
  ∃ userId roomId, l = .removed userId roomId
    ∧ m' = m.mapValues fun _ player => if player.userId = userId then player.exit roomId else player

theorem evictMember (sid : String) (op : Nat) (roomId targetId targetName reason : String)
    (room : RoomRecord) (reqId : Option String)
    : MovesPlayers Removes (evictMember sid op roomId targetId targetName reason room reqId) := by
  refine .bind_keep ?_ fun _ => ?_
  . exact .bind_keep (.atom fun e s => .inr ⟨_, _, rfl, rfl⟩) fun _ => .atom fun _ _ => rfl
  . refine .bind (.syncRoomRecord _) fun _ => .bind (.roomRecord _) fun _ => ?_
    refine .bind (.bind (.look _) fun _ => .broadcastToRoom _ _) fun _ => .respondOk _ _ _ _

theorem moderate {sid : String} {op : Nat} {d : Json} {action : ModAction} {actorId : String}
    {room : RoomRecord} {notSelf : Bool} {notAllowed : String} {body : String → String → Proto Bool}
    (hbody : ∀ targetId targetName, MovesPlayers R (body targetId targetName))
    : MovesPlayers R (moderate sid op d action actorId room notSelf notAllowed body) := by
  refine .bind (.resolveTarget _) fun target => ?_
  split
  . exact .respondError _ _ _ _
  . dsimp only
    split
    . exact .respondError _ _ _ _
    . split
      . exact .respondError _ _ _ _
      . exact hbody _ _

theorem kickMember (sid : String) (d : Json) : MovesPlayers Removes (kickMember sid d) :=
  .communityRequest fun _ _ _ => .moderate fun _ _ => .evictMember _ _ _ _ _ _ _ _

theorem banMember (sid : String) (d : Json) : MovesPlayers Removes (banMember sid d) := by
  refine .communityRequest fun _ _ _ => .moderate fun _ _ => .bind (.setRoomRecord _ _) fun stored => ?_
  split
  . exact .evictMember _ _ _ _ _ _ _ _
  . exact .respondError _ _ _ _

theorem deleteRoomOp (sid : String) (d : Json)
    : MovesPlayers (fun m l m' => ∃ roomId, l = .emptied roomId
          ∧ m' = m.mapValues fun _ player => player.exit roomId)
        (deleteRoomOp sid d) := by
  refine .communityRequest fun _ _ _ => .bind (.look _) fun isServerAdmin => ?_
  split
  . exact .respondError _ _ _ _
  . refine .bind (.removeIconFile _) fun _ => .bind (.deleteRoom _) fun deleted => ?_
    split
    . refine .bind_keep (.atom fun e s => .inr ⟨_, rfl, rfl⟩) fun members => ?_
      exact .bind (.atom fun _ _ => rfl) fun _ => .respondOk _ _ _ _
    . exact .respondError _ _ _ _

/--
What entering or leaving a call does to the sessions, when it is not refused.
-/
def SetsCall (sid : String) (isVoiceChat camera screen : Bool) (callRoom : Option String)
    (m m' : AssocMap String PlayerSession) : Prop :=
  ∃ player, m.lookup sid = some player ∧ (∀ room, callRoom = some room → room ∈ player.rooms)
    ∧ (isVoiceChat → player.status ≠ .invisible)
    ∧ m' = m.modify sid (.setCall isVoiceChat camera screen callRoom)

theorem setCallIn_snd (sid : String) (isVoiceChat camera screen : Bool) (callRoom : Option String)
    (player : PlayerSession) (m : AssocMap String PlayerSession)
    : (setCallIn sid isVoiceChat camera screen callRoom player m).2 = m
        ∨ (∀ room, callRoom = some room → room ∈ player.rooms)
          ∧ (setCallIn sid isVoiceChat camera screen callRoom player m).2
            = m.modify sid (.setCall isVoiceChat camera screen callRoom) := by
  cases callRoom with
  | none => exact .inr ⟨fun _ h => by contradiction, rfl⟩
  | some room =>
    by_cases hroom : room ∈ player.rooms
    . refine .inr ⟨fun room' h => Option.some.inj h ▸ hroom, ?_⟩
      simp [setCallIn, hroom]
    . left
      simp [setCallIn, hroom]

/--
Op 98 takes the other sessions of the account out of their calls first.
-/
def SetsVoice (sid : String) (isVoiceChat : Bool) (callRoom : Option String)
    (m m' : AssocMap String PlayerSession) : Prop :=
  ∃ player m₁ camera screen, m.lookup sid = some player
    ∧ m₁ = (if isVoiceChat && player.userId ≠ "" then evictVoice sid player.userId m else m)
    ∧ (m' = m₁ ∨ (∀ room, callRoom = some room → room ∈ player.rooms)
        ∧ (isVoiceChat → player.status ≠ .invisible)
        ∧ m' = m₁.modify sid (.setCall isVoiceChat camera screen callRoom))

theorem completeVoice (sid : String) (isVoiceChat camera screen : Bool) (callRoom : Option String)
    (reqId : Option String)
    : MovesPlayers (fun m _ m' => SetsVoice sid isVoiceChat callRoom m m')
        (completeVoice sid isVoiceChat camera screen callRoom reqId) := by
  refine .bind_keep (.atom fun e s => ?_) fun result => ?_
  . split
    . exact .inl rfl
    next player hplayer =>
      right
      dsimp only
      generalize hm₁ : (if isVoiceChat && player.userId ≠ "" then evictVoice sid player.userId s.players
        else s.players) = m₁
      split
      . exact ⟨player, m₁, camera, screen, hplayer, hm₁.symm, .inl rfl⟩
      next hvisible =>
        refine ⟨player, m₁, camera, screen, hplayer, hm₁.symm, ?_⟩
        rcases setCallIn_snd sid isVoiceChat camera screen callRoom player m₁ with hsame | ⟨hroom, hset⟩
        . exact .inl hsame
        . refine .inr ⟨hroom, fun hvoice hstatus => hvisible ?_, hset⟩
          simp [hvoice, hstatus]
  . split
    . exact .respondError _ _ _ _
    . exact .bind (.broadcastVoice _ _ _ _) fun _ => .bind (.broadcastEvicted _) fun _ => .respondOk _ _ _ _

def isVoiceRequest (d : Json) : Bool := (d.getBool? "isVoiceChat").getD false

theorem updateVoiceChat (sid : String) (d : Json)
    : MovesPlayers (fun m _ m' => SetsVoice sid (isVoiceRequest d) (namedCallRoom d) m m')
        (updateVoiceChat sid d) := by
  refine .bind (.hitRateLimit _ _ _) fun limited => ?_
  split
  . exact .respondError _ _ _ _
  . refine .bind (.callsSwitchedOff _) fun off => ?_
    split
    . exact .respondError _ _ _ _
    . split
      refine .bind (.look _) fun current => ?_
      split
      refine .bind (.hitVoiceJoin _ _ _) fun limited => ?_
      split
      . exact .respondError _ _ _ _
      . split
        . refine .bind (.voiceRefused _ _) fun refused => ?_
          split
          . exact .respondError _ _ _ _
          . exact .completeVoice _ _ _ _ _ _
        . exact .bind (.closeCallAccess _ _) fun _ => .completeVoice _ _ _ _ _ _

theorem updateCallMediaState (sid : String) (d : Json)
    : MovesPlayers (fun m _ m' => ∃ camera screen player, m.lookup sid = some player
          ∧ (isVoiceRequest d → player.userId ≠ "" → ∀ k other, m.lookup k = some other →
            isStaleVoice sid player.userId other = false)
          ∧ SetsCall sid (isVoiceRequest d) camera screen (namedCallRoom d) m m')
        (updateCallMediaState sid d) := by
  refine .bind (.hitRateLimit _ _ _) fun limited => ?_
  split
  . exact .respondError _ _ _ _
  . refine .bind (.callsSwitchedOff _) fun off => ?_
    split
    . exact .respondError _ _ _ _
    . split
      next audio camera screen _ =>
      refine .bind_keep (.atom fun e s => ?_) fun result => ?_
      . split
        . exact .inl rfl
        next player hplayer =>
          dsimp only
          split
          . exact .inl rfl
          . split
            . exact .inl rfl
            next hvisible =>
              split
              . exact .inl rfl
              next hsingle =>
                refine (setCallIn_snd ..).imp_right fun hset => ?_
                refine ⟨camera, screen, player, hplayer, fun hvoice huser k other hother => ?_,
                  player, hplayer, hset.1, fun hvoice hstatus => hvisible ?_, hset.2⟩
                . rw [← Bool.not_eq_true]
                  intro hstale
                  apply hsingle
                  have hany : s.players.values.any (isStaleVoice sid player.userId) :=
                    List.any_eq_true.2 ⟨other, AssocMap.mem_values_of_lookup hother, hstale⟩
                  simp only [isVoiceRequest] at hvoice
                  simp [hvoice, huser, hany]
                . simp only [isVoiceRequest] at hvoice
                  simp [hvoice, hstatus]
      . split
        . exact .respondError _ _ _ _
        . exact .bind (.broadcastCallMedia _ _ _ _) fun _ => .respondOk _ _ _ _

theorem updateCallDeafenedState (sid : String) (d : Json)
    : MovesPlayers (fun m _ m' => ∃ player isDeafened, m.lookup sid = some player ∧ player.isVoiceChat
          ∧ m' = m.modify sid fun player => { player with callDeafened := isDeafened })
        (updateCallDeafenedState sid d) := by
  unfold Lqxp.updateCallDeafenedState
  dsimp only
  split
  . split
    . exact .respondError _ _ _ _
    . refine .bind_keep (.atom fun e s => ?_) fun result => ?_
      . split
        . exact .inl rfl
        next player hplayer =>
          split
          . exact .inl rfl
          . split
            . exact .inl rfl
            . split
              . exact .inl rfl
              next hcall =>
                refine .inr ⟨player, _, hplayer, ?_, rfl⟩
                simp only [PlayerSession.isCallInRoom, Bool.not_eq_true', Bool.not_eq_false,
                  Bool.and_eq_true] at hcall
                exact hcall.1
      . split
        . exact .respondError _ _ _ _
        . exact .bind (.broadcastToRoom _ _) fun _ => .respondOk _ _ _ _
  . exact .respondError _ _ _ _

theorem setCallAccess (sid : String) (d : Json) : MovesPlayers (fun _ _ _ => False) (setCallAccess sid d) := by
  refine .communityRequest fun _ _ _ => ?_
  split
  . exact .respondError _ _ _ _
  . refine .keep <| .bind (.atom fun _ _ => rfl) fun _ => ?_
    exact .bind (.broadcastToRoom _ _) fun _ => .respondOk _ _ _ _

end MovesPlayers

end Lqxp
