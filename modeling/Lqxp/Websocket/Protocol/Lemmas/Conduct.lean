import Lqxp.Prog.Rely
import Lqxp.Websocket.Protocol.Lemmas.Buffers
import Lqxp.Websocket.Protocol.Lemmas.Messages
import Lqxp.Websocket.Protocol.Lemmas.Traces

/-!
This module contains what each step of a handler keeps to: to whom it may tell what, and what it leaves of the
sessions. The basic pieces of the handlers come with a lemma each.
-/

namespace Lqxp

section Knowledge

/--
Some state of a list satisfies `K`.
-/
def Known (h : List AppState) (K : AppState → Prop) : Prop := ∃ s ∈ h, K s

variable {h h' : List AppState} {K K' : AppState → Prop}

theorem Known.mono (hk : Known h K) (hbegins : h <+: h') : Known h' K := by
  obtain ⟨s, hs, hK⟩ := hk
  exact ⟨s, hbegins.subset hs, hK⟩

theorem Known.here {s : AppState} (hs : K s) : Known (h ++ [s]) K :=
  ⟨s, List.mem_append_right _ (List.mem_singleton_self _), hs⟩

theorem Known.before {s s' : AppState} (hs : K s) : Known (h ++ [s, s']) K :=
  ⟨s, List.mem_append_right _ List.mem_cons_self, hs⟩

theorem Known.after {s s' : AppState} (hs' : K s') : Known (h ++ [s, s']) K :=
  ⟨s', List.mem_append_right _ (List.mem_cons_of_mem _ (List.mem_singleton_self _)), hs'⟩

theorem Known.imp (hk : Known h K) (himp : ∀ s, K s → K' s) : Known h K' := by
  obtain ⟨s, hs, hK⟩ := hk
  exact ⟨s, hs, himp s hK⟩

namespace AppState

/--
The session is in the room.
-/
def Holds (s : AppState) (sid roomId : String) : Prop :=
  ∃ player, s.players.lookup sid = some player ∧ roomId ∈ player.rooms

/--
The session belongs to the account.
-/
def Belongs (s : AppState) (sid userId : String) : Prop :=
  ∃ player, s.players.lookup sid = some player ∧ player.userId = userId

/--
The session belongs to an administrator of the server.
-/
def Administers (s : AppState) (sid : String) : Prop :=
  ∃ player, s.players.lookup sid = some player ∧ player.isAdmin = true ∧ player.username ≠ ""

/--
The sessions are kept under their ids, and the messages in the buffers of their rooms.
-/
structure Tidy (s : AppState) : Prop where
  ids : s.players.All fun sid player => player.id = sid
  rooms : s.roomMessages.All fun roomId messages => ∀ message ∈ messages, message.roomId = roomId

theorem Tidy.id_of_mem {s : AppState} (hs : s.Tidy) {player : PlayerSession} (h : player ∈ s.players.values)
    : s.players.lookup player.id = some player := by
  obtain ⟨k, hk⟩ := AssocMap.exists_lookup_of_mem_values h
  rwa [hs.ids k player hk]

theorem Tidy.messages {s : AppState} (hs : s.Tidy) {roomId : String} {message : ChatMessageRecord}
    (h : message ∈ s.messages roomId) : message.roomId = roomId := by
  unfold AppState.messages at h
  cases hbuffer : s.roomMessages.lookup roomId with
  | none => simp [hbuffer] at h
  | some messages =>
    rw [hbuffer, Option.getD_some] at h
    exact hs.rooms roomId messages hbuffer message h

end AppState

end Knowledge

section Payloads

def payloadRoom (payload : Json) : Option String :=
  ((payload.get? "d").bind (·.getStr? "gameId")).or ((payload.get? "d").bind (·.getStr? "roomId"))

/--
Whether a message is an answer with the buffered messages of a room.
-/
def isHistory (payload : Json) : Bool :=
  match payload.get? "op" with
  | some (.int n) => n = 18 && ((payload.get? "d").bind (·.get? "messages")).isSome
  | _ => false

def shownMessages (payload : Json) : Option Json := (payload.get? "d").bind (·.get? "messages")

theorem payloadRoom_withRequestId (op : Nat) (d : List (String × Json)) (reqId : Option String)
    : payloadRoom (withRequestId (message op d) reqId) = payloadRoom (message op d) := by
  cases reqId with
  | none => rfl
  | some reqId =>
    simp only [payloadRoom, withRequestId, get?_d_message]
    simp [message, Json.get?_insert, Json.getStr?, Option.filter, Json.isObject]

theorem isHistory_withRequestId (op : Nat) (d : List (String × Json)) (reqId : Option String)
    : isHistory (withRequestId (message op d) reqId) = isHistory (message op d) := by
  cases reqId with
  | none => rfl
  | some reqId =>
    simp only [isHistory, withRequestId, get?_d_message]
    simp [message, Json.get?_insert, Option.filter, Json.isObject]

theorem shownMessages_withRequestId (op : Nat) (d : List (String × Json)) (reqId : Option String)
    : shownMessages (withRequestId (message op d) reqId) = shownMessages (message op d) := by
  cases reqId with
  | none => rfl
  | some reqId =>
    simp only [shownMessages, withRequestId, get?_d_message]
    simp [message, Json.get?_insert, Option.filter, Json.isObject]

theorem isHistory_message (op : Nat) (d : List (String × Json))
    : isHistory (message op d) = (decide (op = 18) && ((Json.obj d).get? "messages").isSome) := by
  have hop : decide ((op : Int) = 18) = decide (op = 18) := decide_eq_decide.2 Int.ofNat_inj
  rw [isHistory, get?_op_message, get?_d_message, Option.bind_some, ← hop]

end Payloads

/--
What a session may be told, by a handler on behalf of the session `sid` that has come across the states `h`. Another
session is told about a room only if it has been in it, and else only what its own account sends or an administrator
of the server. The messages that a session is read are the buffered ones of a room that it has been in.
-/
structure MayHear (sid : String) (h : List AppState) (m : String × Json) : Prop where
  about (roomId : String) : m.1 ≠ sid → payloadRoom m.2 = some roomId → Known h (·.Holds m.1 roomId)
  other : m.1 ≠ sid → payloadRoom m.2 = none →
    (∃ userId, userId ≠ "" ∧ Known h (·.Belongs sid userId) ∧ Known h (·.Belongs m.1 userId))
      ∨ Known h (·.Administers sid)
  history : isHistory m.2 = true → ∃ roomId, payloadRoom m.2 = some roomId ∧ Known h (·.Holds m.1 roomId)
    ∧ Known h fun s => shownMessages m.2 = some (.arr ((s.messages roomId).map ChatMessageRecord.toJson))

namespace MayHear

variable {sid : String} {h : List AppState} {m : String × Json}

theorem of_room {roomId : String} (hroom : payloadRoom m.2 = some roomId) (hhistory : isHistory m.2 = false)
    (hholds : Known h (·.Holds m.1 roomId)) : MayHear sid h m where
  about roomId' _ hroom' := by
    obtain rfl := Option.some.inj (hroom.symm.trans hroom')
    exact hholds
  other _ hnone := absurd (hnone.symm.trans hroom) (Option.some_ne_none roomId).symm
  history htrue := absurd (hhistory.symm.trans htrue) Bool.false_ne_true

theorem of_no_room (hroom : payloadRoom m.2 = none) (hhistory : isHistory m.2 = false)
    (hother : m.1 ≠ sid → (∃ userId, userId ≠ "" ∧ Known h (·.Belongs sid userId) ∧ Known h (·.Belongs m.1 userId))
      ∨ Known h (·.Administers sid))
    : MayHear sid h m where
  about roomId _ hroom' := absurd (hroom.symm.trans hroom') (Option.some_ne_none roomId).symm
  other hne _ := hother hne
  history htrue := absurd (hhistory.symm.trans htrue) Bool.false_ne_true

theorem of_sender (hsender : m.1 = sid) (hhistory : isHistory m.2 = false) : MayHear sid h m where
  about _ hne := absurd hsender hne
  other hne := absurd hsender hne
  history htrue := absurd (hhistory.symm.trans htrue) Bool.false_ne_true

end MayHear

/--
What tells who a session belongs to, and when that was found out.
-/
def PlayerSession.credentials (player : PlayerSession) : String × String × Bool × Nat × Nat :=
  (player.userId, player.username, player.isAdmin, player.identifiedAtMs, player.lastRevalidationMs)

/--
What a step of a handler on behalf of a session keeps to.
-/
structure Conduct (sid : String) (h : List AppState) (s : AppState) (l : Label) (s' : AppState) : Prop where
  heard : ∀ m ∈ l.queued, MayHear sid (h ++ [s]) m
  credentials (k : String) (player' : PlayerSession) : s'.players.lookup k = some player' →
    ∃ player, s.players.lookup k = some player
      ∧ ((∃ userId, l = .bound k userId) ∨ player.credentials = player'.credentials)

/--
A handler on behalf of a session that has come across the states `h`. Its answer and what it has come across then
satisfy `Q`.
-/
abbrev Conducts (sid : String) (Q : α → List AppState → Prop) (p : Proto α) (h : List AppState) : Prop :=
  Prog.Abides AppState.Tidy (fun h _ s l s' => Conduct sid h s l s') Q p h

abbrev Conducts.Any (sid : String) (p : Proto α) (h : List AppState) : Prop := Conducts sid (fun _ _ => True) p h

variable {sid : String} {h : List AppState} {s s' : AppState}

section Gentle

/--
A step that does not change who the sessions belong to, and keeps everything in its place.
-/
structure Gentle (s s' : AppState) : Prop where
  credentials (k : String) (player' : PlayerSession) : s'.players.lookup k = some player' →
    ∃ player, s.players.lookup k = some player ∧ player.credentials = player'.credentials
  tidy : s.Tidy → s'.Tidy

namespace Gentle

theorem frame (hplayers : s'.players = s.players) (hmessages : s'.roomMessages = s.roomMessages) : Gentle s s' where
  credentials _ player' hk := ⟨player', hplayers ▸ hk, rfl⟩
  tidy hs := ⟨by rw [hplayers]; exact hs.ids, by rw [hmessages]; exact hs.rooms⟩

theorem refl (s : AppState) : Gentle s s := frame rfl rfl

theorem trans {s'' : AppState} (h : Gentle s s') (h' : Gentle s' s'') : Gentle s s'' where
  credentials k player'' hk := by
    obtain ⟨player', hk', hsame'⟩ := h'.credentials k player'' hk
    obtain ⟨player, hk'', hsame⟩ := h.credentials k player' hk'
    exact ⟨player, hk'', hsame.trans hsame'⟩
  tidy hs := h'.tidy (h.tidy hs)

theorem modify {k : String} {f : PlayerSession → PlayerSession}
    (hf : ∀ player, (f player).id = player.id ∧ (f player).credentials = player.credentials)
    (hplayers : s'.players = s.players.modify k f) (hmessages : s'.roomMessages = s.roomMessages) : Gentle s s' where
  credentials k' player' hk' := by
    rw [hplayers, AssocMap.lookup_modify] at hk'
    split at hk'
    . obtain ⟨player, hplayer, rfl⟩ := Option.map_eq_some_iff.1 hk'
      exact ⟨player, hplayer, (hf player).2.symm⟩
    . exact ⟨player', hk', rfl⟩
  tidy hs := by
    refine ⟨?_, by rw [hmessages]; exact hs.rooms⟩
    rw [hplayers]
    exact hs.ids.modify fun player _ hid => (hf player).1.trans hid

theorem mapValues {f : String → PlayerSession → PlayerSession}
    (hf : ∀ k player, (f k player).id = player.id ∧ (f k player).credentials = player.credentials)
    (hplayers : s'.players = s.players.mapValues f)
    (hmessages : ∀ k messages, s'.roomMessages.lookup k = some messages → s.roomMessages.lookup k = some messages)
    : Gentle s s' where
  credentials k' player' hk' := by
    rw [hplayers, AssocMap.lookup_mapValues] at hk'
    obtain ⟨player, hplayer, rfl⟩ := Option.map_eq_some_iff.1 hk'
    exact ⟨player, hplayer, (hf k' player).2.symm⟩
  tidy hs := by
    refine ⟨?_, fun k messages hk => hs.rooms k messages (hmessages k messages hk)⟩
    rw [hplayers]
    exact hs.ids.mapValues fun k player _ hid => (hf k player).1.trans hid

theorem erase {k : String} (hplayers : s'.players = s.players.erase k) (hmessages : s'.roomMessages = s.roomMessages)
    : Gentle s s' where
  credentials k' player' hk' := by
    rw [hplayers, AssocMap.lookup_erase] at hk'
    split at hk'
    . contradiction
    . exact ⟨player', hk', rfl⟩
  tidy hs := by
    refine ⟨?_, by rw [hmessages]; exact hs.rooms⟩
    rw [hplayers]
    exact hs.ids.erase

theorem apply_roomId {change : MessageChange} {roomId : String} {messages : List ChatMessageRecord}
    (hstored : ∀ message, change = .stored message → message.roomId = roomId)
    (h : ∀ message ∈ messages, message.roomId = roomId)
    : ∀ message ∈ change.apply messages, message.roomId = roomId := by
  intro message hmem
  have hmodified {messageId : String} {f : ChatMessageRecord → ChatMessageRecord}
      (hf : ∀ m, (f m).roomId = m.roomId) (hmem : message ∈ modifyMessage messageId f messages)
      : message.roomId = roomId := by
    rcases mem_modifyMessage hmem with hold | ⟨found, hfound, rfl⟩
    . exact h message hold
    . exact (hf found).trans (h found (findMessage_eq_some hfound).1)
  cases change with
  | stored stored =>
    rw [MessageChange.apply] at hmem
    rcases mem_pushMessage hmem with hold | rfl
    . exact h message hold
    . exact hstored message rfl
  | reacted messageId emoji username =>
    refine hmodified (fun m => ?_) hmem
    simp only [toggleReactionInMessage]
    split
    . split
      . rfl
      . rfl
    . rfl
  | deleted messageId deletedBy byModerator =>
    refine hmodified ?_ hmem
    exact fun _ => rfl
  | cleared username =>
    obtain ⟨old, hold, rfl⟩ := List.mem_map.1 hmem
    split
    . exact h old hold
    . exact h old hold
  | edited messageId text profile encrypted editedAt =>
    refine hmodified ?_ hmem
    exact fun _ => rfl
  | decorated messageId preview =>
    refine hmodified ?_ hmem
    exact fun _ => rfl

theorem change {roomId : String} {change : MessageChange}
    (hstored : ∀ message, change = .stored message → message.roomId = roomId)
    : Gentle s (s.change roomId change) where
  credentials _ player' hk := ⟨player', hk, rfl⟩
  tidy hs := ⟨hs.ids, hs.rooms.insert (apply_roomId hstored fun _ hmem => hs.messages hmem)⟩

end Gentle

end Gentle

theorem Conduct.of_gentle {l : Label} (hqueued : l.queued = []) (hgentle : Gentle s s') : Conduct sid h s l s' :=
  ⟨fun m hm => absurd hm (by simp [hqueued]), fun k player' hk => by
    obtain ⟨player, hplayer, hsame⟩ := hgentle.credentials k player' hk
    exact ⟨player, hplayer, .inr hsame⟩⟩

namespace Conducts

variable {Q : α → List AppState → Prop} {R : β → List AppState → Prop}

theorem followed {p : Proto α} {f : α → Proto β} (hp : Conducts sid Q p h) (hf : ∀ a h', Conducts sid R (f a) h')
    : Conducts sid R (p >>= f) h :=
  hp.bind fun a h' _ _ => hf a h'

theorem any {p : Proto α} (hp : Conducts sid Q p h) : Any sid p h := hp.mono fun _ _ _ _ => trivial

theorem gently {f : Env → AppState → α × Label × AppState}
    (hf : ∀ e s, s.Tidy →
      (f e s).2.1.queued = [] ∧ Gentle s (f e s).2.2 ∧ Q (f e s).1 (h ++ [s, (f e s).2.2]))
    : Conducts sid Q (Prog.atom f) h := by
  refine Prog.Abides.atom fun e s hs => ?_
  obtain ⟨hqueued, hgentle, hQ⟩ := hf e s hs
  exact ⟨.of_gentle hqueued hgentle, hgentle.tidy hs, hQ⟩

theorem quiet {f : Env → AppState → α × Label × AppState}
    (hf : ∀ e s, (f e s).2.1.queued = [] ∧ (f e s).2.2.players = s.players
      ∧ (f e s).2.2.roomMessages = s.roomMessages)
    : Conducts sid (fun a h' => ∃ e, ∃ s ∈ h', s.Tidy ∧ a = (f e s).1) (Prog.atom f) h :=
  gently fun e s hs => ⟨(hf e s).1, .frame (hf e s).2.1 (hf e s).2.2, e, s, by simp, hs, rfl⟩

theorem look (f : Env → AppState → α)
    : Conducts sid (fun a h' => ∃ e, ∃ s ∈ h', s.Tidy ∧ a = f e s) (Lqxp.look f) h :=
  quiet fun _ _ => ⟨rfl, rfl, rfl⟩

theorem telling {f : Env → AppState → α × List String × Json}
    (hf : ∀ e s, s.Tidy → ∀ k ∈ (f e s).2.1, MayHear sid (h ++ [s]) (k, (f e s).2.2))
    : Any sid (Prog.atom fun e s => ((f e s).1, .broadcast (f e s).2.1 (f e s).2.2, s)) h := by
  refine Prog.Abides.atom fun e s hs => ⟨⟨fun m hm => ?_, fun k player hk => ⟨player, hk, .inr rfl⟩⟩, hs, trivial⟩
  obtain ⟨k, hk, rfl⟩ := List.mem_map.1 hm
  exact hf e s hs k hk

theorem hitRateLimit (key : String) (limit windowMs : Nat) : Any sid (hitRateLimit key limit windowMs) h :=
  (quiet fun _ _ => ⟨rfl, rfl, rfl⟩).any

theorem getPlayer : Conducts sid (fun player h' => ∀ p, player = some p →
      Known h' fun s => s.players.lookup sid = some p) (getPlayer sid) h := by
  have hquiet : Conducts sid _ (Lqxp.getPlayer sid) h := quiet fun e s => by
    split
    . exact ⟨rfl, rfl, rfl⟩
    . exact ⟨rfl, rfl, rfl⟩
  refine hquiet.mono fun player h' _ ⟨e, s, hs, _, hplayer⟩ p hp => ⟨s, hs, ?_⟩
  rw [hp] at hplayer
  split at hplayer
  next p' hp' => rw [hp', hplayer]
  next => contradiction

theorem nowMs : Any sid nowMs h := (quiet fun _ _ => ⟨rfl, rfl, rfl⟩).any

theorem roomRecord (roomId : String) : Any sid (roomRecord roomId) h := (quiet fun _ _ => ⟨rfl, rfl, rfl⟩).any

theorem setRoomRecord (roomId : String) (room : RoomRecord) : Any sid (setRoomRecord roomId room) h :=
  (quiet fun _ _ => by split <;> exact ⟨rfl, rfl, rfl⟩).any

theorem respondToSender {payload : Json} (hpayload : isHistory payload = false)
    : Any sid (respondToSender sid payload) h := by
  refine Prog.Abides.atom fun e s hs => ?_
  split
  . refine ⟨⟨fun m hm => ?_, fun k player hk => ⟨player, hk, .inr rfl⟩⟩, hs, trivial⟩
    obtain rfl := List.mem_singleton.1 hm
    exact .of_sender rfl hpayload
  . exact ⟨.of_gentle rfl (.refl s), hs, trivial⟩

theorem respondError (op : Nat) (text : String) (reqId : Option String)
    : Any sid (respondError sid op text reqId) h := by
  refine (respondToSender ?_).followed fun _ _ => .pure trivial
  rw [isHistory_withRequestId, isHistory_message]
  exact Bool.and_false _

theorem respondOk {op : Nat} (d : List (String × Json)) (reqId : Option String) (hop : op ≠ 18)
    : Any sid (respondOk sid op d reqId) h := by
  refine (respondToSender ?_).followed fun _ _ => .pure trivial
  rw [isHistory_withRequestId, isHistory_message, decide_eq_false hop, Bool.false_and]

theorem broadcastToRoom {roomId : String} {payload : Json} (hpayload : payloadRoom payload = some roomId)
    (hhistory : isHistory payload = false) : Any sid (broadcastToRoom roomId payload) h := by
  refine telling (f := fun _ s => ((), (s.players.values.filter fun player => player.rooms.contains roomId).map (·.id),
    payload)) fun e s hs k hk => ?_
  obtain ⟨player, hplayer, rfl⟩ := List.mem_map.1 hk
  obtain ⟨hvalue, hroom⟩ := List.mem_filter.1 hplayer
  exact .of_room hpayload hhistory (.here ⟨player, hs.id_of_mem hvalue, by simpa using hroom⟩)

section Basic

theorem respond {op : Nat} (d : List (String × Json)) (reqId : Option String) (hop : op ≠ 18)
    : Any sid (Lqxp.respondToSender sid (withRequestId (message op d) reqId)) h := by
  refine respondToSender ?_
  rw [isHistory_withRequestId, isHistory_message, decide_eq_false hop, Bool.false_and]

theorem announce {roomId : String} {op : Nat} {d : List (String × Json)} (reqId : Option String)
    (hd : payloadRoom (message op d) = some roomId) (hop : op ≠ 18)
    : Any sid (Lqxp.broadcastToRoom roomId (withRequestId (message op d) reqId)) h := by
  refine broadcastToRoom ((payloadRoom_withRequestId op d reqId).trans hd) ?_
  rw [isHistory_withRequestId, isHistory_message, decide_eq_false hop, Bool.false_and]

theorem resolveRoomForSession (requestedRoom : Option String)
    : Conducts sid (fun answer h' => ∀ roomId, answer = .ok roomId → Known h' (·.Holds sid roomId))
        (resolveRoomForSession sid requestedRoom) h := by
  refine (look _).mono fun _ _ _ ⟨e, s, hs, _, hanswer⟩ roomId hok => ⟨s, hs, ?_⟩
  rw [hok] at hanswer
  split at hanswer
  . contradiction
  next player hplayer =>
    refine ⟨player, hplayer, ?_⟩
    split at hanswer
    . contradiction
    split at hanswer
    . split at hanswer
      . contradiction
      split at hanswer
      next hroom =>
        obtain rfl := Except.ok.inj hanswer
        simpa using hroom
      . contradiction
    . split at hanswer
      next room hroom =>
        obtain rfl := Except.ok.inj hanswer
        exact mem_of_pickFrom hroom
      . contradiction

theorem sessionIdentity : Any sid (sessionIdentity sid) h := by
  refine getPlayer.followed fun _ _ => ?_
  split
  . split
    . exact .pure trivial
    . exact .pure trivial
  . exact .pure trivial

theorem identifiedPlayer : Conducts sid (fun player h' => ∀ p, player = some p →
      Known h' fun s => s.players.lookup sid = some p) (identifiedPlayer sid) h :=
  getPlayer.bind fun _ _ _ hplayer => .pure fun p hp => hplayer p (Option.filter_eq_some_iff.1 hp).1

theorem resolveTarget (d : Json) : Any sid (resolveTarget d) h := by
  refine (quiet fun e s => ?_).any
  split
  . exact ⟨rfl, rfl, rfl⟩
  split
  . split
    . exact ⟨rfl, rfl, rfl⟩
    . exact ⟨rfl, rfl, rfl⟩
  . exact ⟨rfl, rfl, rfl⟩

theorem syncRoomRecord (roomId : String) : Any sid (syncRoomRecord roomId) h := by
  refine (look _).followed fun usernames h => (roomRecord _).followed fun previous h => ?_
  refine (setRoomRecord _ _).followed fun stored h => ?_
  split
  . exact .pure trivial
  . exact .pure trivial

theorem recordOrRoster (roomId : String) (viewer : Option String) : Any sid (recordOrRoster roomId viewer) h :=
  (roomRecord _).followed fun _ _ => (look _).followed fun _ _ => .pure trivial

theorem storeUploadedBytes (extension : String) (bytes : List UInt8) (mimeType : String)
    : Any sid (storeUploadedBytes extension bytes mimeType) h := by
  refine (quiet fun e s => ?_).any
  split
  . exact ⟨rfl, rfl, rfl⟩
  . exact ⟨rfl, rfl, rfl⟩

theorem removeIconFile (icon : Option RoomIcon) : Any sid (removeIconFile icon) h := by
  unfold Lqxp.removeIconFile
  split
  . refine (quiet fun e s => ?_).any
    split
    . exact ⟨rfl, rfl, rfl⟩
    . exact ⟨rfl, rfl, rfl⟩
  . exact .pure trivial

theorem storeRoomIconFromPayload (d : Json) (roomId : String) : Any sid (storeRoomIconFromPayload d roomId) h := by
  unfold Lqxp.storeRoomIconFromPayload
  split
  . split
    . exact .pure trivial
    refine ((roomRecord _).followed fun _ _ => .pure trivial : Any sid (roomIcon roomId) h).followed fun icon h => ?_
    refine (removeIconFile _).followed fun _ h => (storeUploadedBytes _ _ _).followed fun file h => ?_
    split
    . exact .pure trivial
    . exact .pure trivial
  . exact .pure trivial

theorem setRoomIcon (roomId : String) (icon : RoomIcon) : Any sid (setRoomIcon roomId icon) h :=
  (roomRecord _).followed fun _ _ => setRoomRecord _ _

theorem accountOf : Any sid (accountOf sid) h := getPlayer.followed fun _ _ => .pure trivial

theorem dispatchRoomHistory {roomId : String} (reqId : Option String) (hroom : Known h (·.Holds sid roomId))
    : Any sid (dispatchRoomHistory sid roomId reqId) h := by
  refine (look _).bind fun messages h₁ hbegins₁ hlook => (look _).any.bind fun profiles h₂ hbegins₂ _ => ?_
  obtain ⟨e₁, s₁, hs₁, -, hmessages⟩ := hlook
  refine Prog.Abides.atom fun e s hs => ?_
  split
  . refine ⟨⟨fun m hm => ?_, fun k player hk => ⟨player, hk, .inr rfl⟩⟩, hs, trivial⟩
    obtain rfl := List.mem_singleton.1 hm
    refine ⟨fun _ hne => absurd rfl hne, fun hne => absurd rfl hne, fun _ => ⟨roomId, ?_, ?_, ?_⟩⟩
    . rw [payloadRoom_withRequestId]
      rfl
    . exact ((hroom.mono hbegins₁).mono hbegins₂).mono (List.prefix_append _ _)
    . refine ⟨s₁, List.mem_append_left _ (hbegins₂.subset hs₁), ?_⟩
      show shownMessages (withRequestId _ _) = _
      rw [shownMessages_withRequestId, ← hmessages]
      rfl
  . exact ⟨.of_gentle rfl (.refl s), hs, trivial⟩

theorem communityRequest {op : Nat} {key : String} {limit windowMs : Nat} {notCommunity : String} {d : Json}
    {body : String × String → String → RoomRecord → Proto Bool}
    (hbody : ∀ actor roomId room h', Any sid (body actor roomId room) h')
    : Any sid (communityRequest op key limit windowMs notCommunity sid d body) h := by
  refine (hitRateLimit _ _ _).followed fun limited h => ?_
  split
  . exact respondError _ _ _
  refine sessionIdentity.followed fun actor h => ?_
  split
  . refine (resolveRoomForSession _).followed fun answer h => ?_
    split
    . exact respondError _ _ _
    refine (roomRecord _).followed fun room h => ?_
    split
    . split
      . exact respondError _ _ _
      . exact hbody _ _ _ _
    . exact respondError _ _ _
  . exact respondError _ _ _

theorem withTarget {op : Nat} {d : Json} {body : String → String → Proto Bool}
    (hbody : ∀ targetId targetName h', Any sid (body targetId targetName) h')
    : Any sid (withTarget sid op d body) h := by
  refine (resolveTarget d).followed fun answer h => ?_
  split
  . exact respondError _ _ _
  . exact hbody _ _ _

end Basic

end Conducts

end Lqxp
