import Lqxp.Prog.Emits
import Lqxp.Websocket.Protocol.Lemmas.Presence
import Lqxp.Websocket.Protocol.Lemmas.Profiles

/-!
This module contains the messages by which the devices of an account hear of each other: which of them a change of
the settings and a disconnect queue, among all the messages that they queue.
-/

namespace Lqxp

/--
What a message says about the devices of an account: its event and its client id.
-/
def peerEvent (payload : Json) : Option (String × String) :=
  match payload.get? "op" with
  | some (.int n) =>
    if n = 63 then
      (payload.get? "d").bind fun d =>
        (d.getStr? "event").bind fun event => (d.getStr? "clientId").map fun clientId => (event, clientId)
    else
      none
  | _ => none

theorem peerEvent_sync (event clientId platform : String)
    : peerEvent (message 63
        [("event", .str event), ("clientId", .str clientId), ("platform", .str platform)])
        = some (event, clientId) := rfl

theorem peerEvent_message {op : Nat} (h : op ≠ 63) (d : List (String × Json)) : peerEvent (message op d) = none := by
  have hop : (op : Int) ≠ 63 := by exact_mod_cast h
  simp [peerEvent, message, Json.get?, hop]

theorem peerEvent_withRequestId {op : Nat} (h : op ≠ 63) (d : List (String × Json)) (reqId : Option String)
    : peerEvent (withRequestId (message op d) reqId) = none := by
  cases reqId with
  | none => exact peerEvent_message h d
  | some reqId =>
    have hop : (op : Int) ≠ 63 := by exact_mod_cast h
    have hget : (withRequestId (message op d) (some reqId)).get? "op" = some (.int op) := by
      simp [withRequestId, message, Json.get?_insert]
      rfl
    simp [peerEvent, hget, hop]

/--
A piece of a handler that queues nothing.
-/
abbrev Mute (p : Proto α) : Prop := p.Emits fun l => l.queued = []

namespace Mute

theorem queued {p : Proto α} (h : Mute p) {s s' : AppState} {tr : List (Env × Label)} {a : α}
    (run : Prog.Trace p s tr a s') : Lqxp.queued tr = [] :=
  List.flatMap_eq_nil_iff.2 fun x hx => h.of_trace run x hx

theorem storeUploadedBytes (extension : String) (bytes : List UInt8) (mimeType : String)
    : Mute (storeUploadedBytes extension bytes mimeType) := by
  refine .atom fun e s => ?_
  split
  . rfl
  . rfl

theorem parseImageField (raw : Json) (key : String) (maxBytes : Nat) (current : Option ProfileImage)
    : Mute (parseImageField raw key maxBytes current) := by
  unfold Lqxp.parseImageField
  split
  . unfold parseProfileImage
    split
    . split
      . exact .pure _
      . refine .bind (storeUploadedBytes _ _ _) fun stored => ?_
        split
        . exact .pure _
        . exact .pure _
    . exact .pure _
  . exact .pure _

theorem parseUserProfile (current : UserProfile) (raw : Option Json) : Mute (parseUserProfile current raw) := by
  unfold Lqxp.parseUserProfile
  split
  . split
    . exact .pure _
    . split
      . exact .pure _
      . refine .bind (parseImageField _ _ _ _) fun avatar => ?_
        split
        . exact .pure _
        . refine .bind (parseImageField _ _ _ _) fun banner => ?_
          split
          . exact .pure _
          . split
            . exact .pure _
            . exact .pure _
  . exact .pure _

theorem persistProfile (player : PlayerSession) (changed : Bool) : Mute (persistProfile player changed) := by
  unfold Lqxp.persistProfile
  split
  . refine .bind (.atom fun e s => ?_) fun _ => .pure _
    split
    . rfl
    . rfl
  . exact .pure _

theorem persistStatus (player : PlayerSession) (changed : Bool) : Mute (persistStatus player changed) := by
  unfold Lqxp.persistStatus
  split
  . refine .bind (.atom fun e s => ?_) fun _ => .pure _
    split
    . rfl
    . rfl
  . exact .pure _

end Mute

/--
A piece of a handler that says nothing about devices.
-/
abbrev Eventless (p : Proto α) : Prop := p.Emits fun l => ∀ m ∈ l.queued, peerEvent m.2 = none

namespace Eventless

theorem pure (a : α) : Eventless (pure a) := Prog.Emits.pure a

theorem bind {p : Proto α} {f : α → Proto β} (hp : Eventless p) (hf : ∀ a, Eventless (f a)) : Eventless (p >>= f) :=
  Prog.Emits.bind hp hf

theorem mute {f : Env → AppState → α × Label × AppState} (h : ∀ e s, (f e s).2.1.queued = [])
    : Eventless (Prog.atom f) :=
  Prog.Emits.atom fun e s _ hm => absurd (h e s ▸ hm) List.not_mem_nil

theorem look (f : Env → AppState → α) : Eventless (look f) := mute fun _ _ => rfl

theorem hitRateLimit (key : String) (limit windowMs : Nat) : Eventless (hitRateLimit key limit windowMs) :=
  mute fun _ _ => rfl

section Replies

theorem broadcastToRoom (gameId : String) {payload : Json} (h : peerEvent payload = none)
    : Eventless (broadcastToRoom gameId payload) := by
  refine Prog.Emits.atom fun e s m hm => ?_
  obtain ⟨k, -, rfl⟩ := List.mem_map.1 hm
  exact h

theorem respondToSender (sid : String) {payload : Json} (h : peerEvent payload = none)
    : Eventless (respondToSender sid payload) := by
  refine Prog.Emits.atom fun e s => ?_
  split
  . intro m hm
    rw [List.mem_singleton.1 hm]
    exact h
  . exact fun _ hm => absurd hm List.not_mem_nil

theorem respondError (sid : String) {op : Nat} (h : op ≠ 63) (text : String) (reqId : Option String)
    : Eventless (respondError sid op text reqId) :=
  .bind (.respondToSender _ (peerEvent_withRequestId h _ _)) fun _ => .pure _

theorem respondOk (sid : String) {op : Nat} (h : op ≠ 63) (d : List (String × Json)) (reqId : Option String)
    : Eventless (respondOk sid op d reqId) :=
  .bind (.respondToSender _ (peerEvent_withRequestId h _ _)) fun _ => .pure _

end Replies

section Records

theorem roomRecord (roomId : String) : Eventless (roomRecord roomId) := mute fun _ _ => rfl

theorem setRoomRecord (roomId : String) (room : RoomRecord) : Eventless (setRoomRecord roomId room) := by
  refine mute fun e s => ?_
  split
  . rfl
  . rfl

theorem syncRoomRecord (roomId : String) : Eventless (syncRoomRecord roomId) := by
  refine .bind (.look _) fun usernames => .bind (.roomRecord _) fun previous => ?_
  refine .bind (.setRoomRecord _ _) fun stored => ?_
  split
  . exact .pure _
  . exact .pure _

theorem clearOnLeave (roomId username : String) (shouldClearMessages : Bool)
    : Eventless (clearOnLeave roomId username shouldClearMessages) := by
  unfold Lqxp.clearOnLeave
  split
  . refine .bind (mute fun _ _ => rfl) fun deletedAt => .bind (mute fun e s => ?_) fun ids => ?_
    . split
      . rfl
      . rfl
    . unfold announceCleared
      split
      . exact .pure _
      . exact .bind (.broadcastToRoom _ (peerEvent_message (by decide) _)) fun _ => .pure _
  . exact .pure _

end Records

section Disconnect

theorem announceLeft (player : PlayerSession) (gameId : String) : Eventless (announceLeft player gameId) := by
  unfold Lqxp.announceLeft
  split
  . exact .pure _
  . exact .bind (.roomRecord _) fun _ => .broadcastToRoom _ (peerEvent_message (by decide) _)

theorem announceHungUp (player : PlayerSession) (gameId : String) : Eventless (announceHungUp player gameId) := by
  unfold Lqxp.announceHungUp
  split
  . exact .pure _
  . exact .broadcastToRoom _ (peerEvent_message (by decide) _)

theorem leaveBehindAll (player : PlayerSession) (rooms : List String)
    : Eventless (leaveBehindAll player rooms) := by
  induction rooms with
  | nil => exact .pure _
  | cons gameId rooms ih =>
    refine .bind (.bind (.syncRoomRecord _) fun _ => ?_) fun _ => ih
    exact .bind (.announceLeft _ _) fun _ => .bind (.clearOnLeave _ _ _) fun _ => .announceHungUp _ _

end Disconnect

section Settings

theorem announceProfileAll (player : PlayerSession) (rooms : List String)
    : Eventless (announceProfileAll player rooms) := by
  induction rooms with
  | nil => exact .pure _
  | cons gameId rooms ih =>
    exact .bind (.bind (.look _) fun _ => .broadcastToRoom _ (peerEvent_message (by decide) _)) fun _ => ih

theorem announceStatusAll (player : PlayerSession) (wasVoiceChat : Bool) (rooms : List String)
    : Eventless (announceStatusAll player wasVoiceChat rooms) := by
  induction rooms with
  | nil => exact .pure _
  | cons gameId rooms ih =>
    refine .bind (.bind (.look _) fun _ => ?_) fun _ => ih
    refine .bind (.broadcastToRoom _ (peerEvent_message (by decide) _)) fun _ => ?_
    split
    . exact .broadcastToRoom _ (peerEvent_message (by decide) _)
    . exact .pure _

end Settings

theorem queued {p : Proto α} (h : Eventless p) {s s' : AppState} {tr : List (Env × Label)} {a : α}
    (run : Prog.Trace p s tr a s') : ∀ m ∈ Lqxp.queued tr, peerEvent m.2 = none := by
  intro m hm
  obtain ⟨x, hx, hm⟩ := List.mem_flatMap.1 hm
  exact h.of_trace run x hx m hm

end Eventless

section Disconnect

variable {s s' : AppState} {sid : String} {tr : List (Env × Label)}

theorem AppState.syncMessages_congr (h : s'.players = s.players) : s'.syncMessages = s.syncMessages := by
  funext userId event clientId platform exclude
  rw [syncMessages, syncMessages, h]

/--
What a disconnect does: the devices of the account hear of it before anybody else does.
-/
inductive DisconnectOutcome (s : AppState) (sid : String) (tr : List (Env × Label)) (s' : AppState) : Prop where
  | absent (hplayer : s.players.lookup sid = none) (hplayers : s'.players = s.players) (hqueued : queued tr = [])
  | gone (player : PlayerSession) (notices : List (String × Json))
      (hplayer : s.players.lookup sid = some player)
      (hplayers : s'.players = s.players.erase sid)
      (hnotices : ∀ m ∈ notices, peerEvent m.2 = none)
      (hqueued : queued tr =
        (if player.userId ≠ "" && player.clientId ≠ "" then
          s'.syncMessages player.userId "leave" player.clientId player.platform none
        else
          []) ++ notices)

theorem trace_disconnectPlayer {u : Unit} (h : Prog.Trace (disconnectPlayer sid) s tr u s')
    : DisconnectOutcome s sid tr s' := by
  obtain ⟨removed, s₁, tr₁, tr₂, hremove, hrest, rfl⟩ := Prog.trace_bind_iff.1 h
  obtain ⟨e, rfl, rfl, rfl⟩ := Prog.trace_atom_iff.1 hremove
  cases hplayer : s.players.lookup sid with
  | none =>
    simp only [hplayer] at hrest ⊢
    obtain ⟨rfl, -, rfl⟩ := Prog.trace_done_iff.1 hrest
    exact .absent hplayer rfl rfl
  | some player =>
    simp only [hplayer] at hrest ⊢
    split at hrest
    next hrouted =>
      obtain ⟨u₁, s₂, tr₃, tr₄, hevent, hleave, rfl⟩ := Prog.trace_bind_iff.1 hrest
      obtain ⟨hqueued, rfl⟩ := trace_broadcastSyncPeerEvent hevent
      have hplayers := KeepsPlayers.leaveBehindAll _ _ _ _ _ _ hleave
      refine .gone player (queued tr₄) hplayer hplayers (Eventless.queued (.leaveBehindAll _ _) hleave) ?_
      rw [if_pos hrouted, AppState.syncMessages_congr hplayers, ← hqueued, ← queued_append]
      rfl
    next hrouted =>
      have hplayers := KeepsPlayers.leaveBehindAll _ _ _ _ _ _ hrest
      refine .gone player (queued tr₂) hplayer hplayers (Eventless.queued (.leaveBehindAll _ _) hrest) ?_
      rw [if_neg hrouted]
      rfl

end Disconnect

section Settings

variable {s s' : AppState} {sid : String} {d : Json} {tr : List (Env × Label)} {b : Bool}

/--
The messages by which the devices of an account hear of a new client id or platform of one of them.
-/
def AppState.announcements (s : AppState) (sid : String) (old player : PlayerSession) : List (String × Json) :=
  if player.clientId ≠ "" && player.clientId ≠ old.clientId then
    s.syncMessages player.userId "join" player.clientId player.platform (some sid)
  else if player.clientId ≠ "" && player.platform ≠ old.platform then
    s.syncMessages player.userId "update" player.clientId player.platform (some sid)
  else
    []

theorem trace_announceSyncPeer {old player : PlayerSession} {u : Unit}
    (h : Prog.Trace (announceSyncPeer sid old player) s tr u s')
    : queued tr = s.announcements sid old player ∧ s' = s := by
  unfold announceSyncPeer at h
  unfold AppState.announcements
  split at h
  next hjoin =>
    rw [if_pos hjoin]
    exact trace_broadcastSyncPeerEvent h
  next hjoin =>
    rw [if_neg hjoin]
    split at h
    next hupdate =>
      rw [if_pos hupdate]
      exact trace_broadcastSyncPeerEvent h
    next hupdate =>
      rw [if_neg hupdate]
      obtain ⟨rfl, -, rfl⟩ := Prog.trace_done_iff.1 h
      exact ⟨rfl, rfl⟩

/--
What a change of the settings does: it is refused, or it changes the session and the devices of the account hear of
that after everybody else.
-/
inductive SettingsOutcome (s : AppState) (sid : String) (d : Json) (tr : List (Env × Label)) (s' : AppState)
    : Prop where
  | refused (hplayers : s'.players = s.players) (hrefused : ¬Confirmed 8 sid tr)
      (hqueued : ∀ m ∈ queued tr, peerEvent m.2 = none)
  | changed (player : PlayerSession) (profile : Option UserProfile) (notices : List (String × Json))
      (hconfirmed : Confirmed 8 sid tr)
      (hplayer : s.players.lookup sid = some player)
      (hplayers : s'.players
        = s.players.modify sid (.applySettings d profile (MovesPlayers.requestedStatus d)))
      (hnotices : ∀ m ∈ notices, peerEvent m.2 = none)
      (hqueued : queued tr = notices
        ++ s'.announcements sid player (player.applySettings d profile (MovesPlayers.requestedStatus d)))

theorem confirmed_respondOk {op : Nat} {fields : List (String × Json)} {reqId : Option String}
    (hthere : (s.players.lookup sid).isSome) (h : Prog.Trace (respondOk sid op fields reqId) s tr b s')
    : Confirmed op sid tr := by
  obtain ⟨e, rfl, -⟩ := trace_respondOk h
  refine ⟨withRequestId (message op (("ok", .bool true) :: fields)) reqId, ?_, ?_⟩
  . rw [AppState.replyLabel, if_pos hthere, queued_cons, queued_nil, List.append_nil]
    exact List.mem_singleton_self _
  . rw [isOk_withRequestId]
    simp [isOk, message, Json.get?, Json.getBool?, List.lookup_cons, Json.asBool?]

theorem trace_finishSettings {profile : Option UserProfile} {status : Option UserPresenceStatus}
    {old player : PlayerSession} (hthere : (s.players.lookup sid).isSome)
    (h : Prog.Trace (completeSettings sid d profile status old player) s tr b s')
    : s'.players = s.players ∧ Confirmed 8 sid tr
        ∧ ∃ notices, (∀ m ∈ notices, peerEvent m.2 = none)
          ∧ queued tr = notices ++ s'.announcements sid old player := by
  have hplayers := KeepsPlayers.completeSettings _ _ _ _ _ _ _ _ _ _ h
  obtain ⟨u₁, s₁, tr₁, tr₁', hprofile, hrest₁, rfl⟩ := Prog.trace_bind_iff.1 h
  obtain ⟨u₂, s₂, tr₂, tr₂', hstatus, hrest₂, rfl⟩ := Prog.trace_bind_iff.1 hrest₁
  obtain ⟨b₃, s₃, tr₃, tr₃', hreply, hrest₃, rfl⟩ := Prog.trace_bind_iff.1 hrest₂
  obtain ⟨u₄, s₄, tr₄, tr₄', hrooms, hrest₄, rfl⟩ := Prog.trace_bind_iff.1 hrest₃
  obtain ⟨u₅, s₅, tr₅, tr₅', hrooms', hrest₅, rfl⟩ := Prog.trace_bind_iff.1 hrest₄
  obtain ⟨u₆, s₆, tr₆, tr₇, hpeers, hdone, rfl⟩ := Prog.trace_bind_iff.1 hrest₅
  obtain ⟨rfl, -, rfl⟩ := Prog.trace_done_iff.1 hdone
  have hmute := Mute.queued (.persistProfile _ _) hprofile
  have hmute' := Mute.queued (.persistStatus _ _) hstatus
  obtain ⟨hevents, rfl⟩ := trace_announceSyncPeer hpeers
  have hthere₂ : (s₂.players.lookup sid).isSome := by
    rwa [KeepsPlayers.persistStatus _ _ _ _ _ _ hstatus, KeepsPlayers.persistProfile _ _ _ _ _ _ hprofile]
  obtain ⟨payload, hmem, hok⟩ := confirmed_respondOk hthere₂ hreply
  refine ⟨hplayers, ⟨payload, ?_, hok⟩, queued tr₃ ++ (queued tr₄ ++ queued tr₅), ?_, ?_⟩
  . simp [hmem]
  . have hreply' := Eventless.queued (.respondOk _ (by decide) _ _) hreply
    have hrooms := Eventless.queued (.announceProfileAll _ _) hrooms
    have hrooms' := Eventless.queued (.announceStatusAll _ _ _) hrooms'
    intro m hm
    rcases List.mem_append.1 hm with hm | hm
    . exact hreply' m hm
    . rcases List.mem_append.1 hm with hm | hm
      . exact hrooms m hm
      . exact hrooms' m hm
  . simp [hmute, hmute', hevents]

theorem trace_changesSettings (h : Prog.Trace (updateClientSettings sid d) s tr b s')
    : SettingsOutcome s sid d tr s' := by
  obtain ⟨limited, s₁, tr₁, tr₂, hlimit, hrest, rfl⟩ := Prog.trace_bind_iff.1 h
  obtain ⟨e₁, rfl, -, rfl⟩ := trace_hitRateLimit hlimit
  split at hrest
  . have hplayers := KeepsPlayers.respondError _ _ _ _ _ _ _ _ hrest
    refine .refused hplayers ?_ ?_
    . rw [confirmed_append rfl]
      exact not_confirmed_respondError hrest
    . simpa using Eventless.queued (.respondError _ (by decide) _ _) hrest
  obtain ⟨current, s₂, tr₃, tr₄, hread, hrest₁, rfl⟩ := Prog.trace_bind_iff.1 hrest
  obtain ⟨e₂, rfl, rfl, rfl⟩ := trace_look hread
  obtain ⟨result, s₃, tr₅, tr₆, hparse, hrest₂, rfl⟩ := Prog.trace_bind_iff.1 hrest₁
  have hplayers := KeepsPlayers.parseUserProfile _ _ _ _ _ _ hparse
  have hmute := Mute.queued (.parseUserProfile _ _) hparse
  split at hrest₂
  . refine .refused ((KeepsPlayers.respondError _ _ _ _ _ _ _ _ hrest₂).trans hplayers) ?_ ?_
    . rw [confirmed_append rfl, confirmed_append rfl, confirmed_append hmute]
      exact not_confirmed_respondError hrest₂
    . simpa [hmute] using Eventless.queued (.respondError _ (by decide) _ _) hrest₂
  next profile =>
    obtain ⟨outcome, s₄, tr₇, tr₈, hchange, hrest₃, rfl⟩ := Prog.trace_bind_iff.1 hrest₂
    obtain ⟨e₃, rfl, rfl, rfl⟩ := Prog.trace_atom_iff.1 hchange
    cases hplayer : s₃.players.lookup sid with
    | none =>
      simp only [hplayer] at hrest₃ ⊢
      refine .refused ((KeepsPlayers.respondError _ _ _ _ _ _ _ _ hrest₃).trans hplayers) ?_ ?_
      . rw [confirmed_append rfl, confirmed_append rfl, confirmed_append hmute, confirmed_append rfl]
        exact not_confirmed_respondError hrest₃
      . simpa [hmute] using Eventless.queued (.respondError _ (by decide) _ _) hrest₃
    | some player =>
      simp only [hplayer] at hrest₃ ⊢
      obtain ⟨hplayers', hconfirmed, notices, hnotices, hqueued⟩ :=
        trace_finishSettings (by simp [hplayer]) hrest₃
      refine .changed player ((d.get? "profile").map fun _ => profile) notices ?_ (hplayers ▸ hplayer) ?_ hnotices ?_
      . rwa [confirmed_append rfl, confirmed_append rfl, confirmed_append hmute, confirmed_append rfl]
      . rw [hplayers', ← hplayers]
        rfl
      . simp only [queued_append, hmute, hqueued]
        rfl

end Settings

end Lqxp
