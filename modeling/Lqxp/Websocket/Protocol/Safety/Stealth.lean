import Lqxp.Prog.Rely
import Lqxp.Websocket.Protocol.Lemmas.Traces

/-!
This module contains what other sessions are told when an invisible session joins a room, leaves it or disconnects.
-/

namespace Lqxp

/--
As long as a session is there, it is invisible, belongs to the account and keeps its messages when it leaves.
-/
def Hidden (sid userId : String) (s : AppState) : Prop :=
  ∀ player, s.players.lookup sid = some player →
    player.userId = userId ∧ player.status = .invisible ∧ player.deleteMessagesOnLeave = false

/--
An account has no visible session in a room.
-/
def Unseen (userId roomId : String) (s : AppState) : Prop :=
  s.players.All fun _ player => player.userId = userId → roomId ∈ player.rooms → player.status = .invisible

/--
A session that is there and hidden.
-/
def Lurks (sid userId : String) (s : AppState) : Prop := Hidden sid userId s ∧ (s.players.lookup sid).isSome

/--
A hidden session of an account that has no visible one in a room.
-/
def Hides (sid userId roomId : String) (s : AppState) : Prop := Hidden sid userId s ∧ Unseen userId roomId s

/--
What a program queues for others than a session, while it runs amid others that keep `P`.
-/
def TellsOthers (P : AppState → Prop) (sid : String) (allowed : AppState → String × Json → Prop) (p : Proto α)
    : Prop :=
  ∀ s s' tr a, P s → Prog.Amid (fun s s' => P s → P s') p.observe s tr a s' →
    ∀ x ∈ tr, ∀ m ∈ x.2.2.2.queued, m.1 ≠ sid → allowed x.2.2.1 m

def rosterFields (gameId : String) (visible : List PlayerSession) : List (String × Json) :=
  let calling := visible.filter (·.isCallInRoom gameId)
  let byName (value : PlayerSession → Json) : Json :=
    visible.foldl (fun fields player => fields.insert player.username (value player)) (.obj [])
  [("players", .arr (visible.map rosterEntry)),
    ("profiles", byName (·.profile.toJson)),
    ("statuses", byName (·.status.toJson)),
    ("platforms", .obj ((platformsByUser visible).map fun x => (x.1, .arr (x.2.map .str)))),
    ("voicePlayers", .arr (calling.map (.str ·.username))),
    ("callPlayers", .arr (calling.map callRosterEntry))]

theorem roomRosters_eq (gameId : String) (viewer : Option String)
    : roomRosters gameId viewer
        = look fun _ s => rosterFields gameId (visiblePlayers s.players gameId viewer) := rfl

/--
The rosters of a message about a room list sessions of other accounts only.
-/
def ListsOthers (userId roomId : String) (payload : Json) : Prop :=
  ∃ others : List PlayerSession, (∀ player ∈ others, player.userId ≠ userId)
    ∧ ∀ x ∈ rosterFields roomId others, (payload.get? "d").bind (·.get? x.1) = some x.2

/--
A message to a session of an account, by which it hears that a device is gone.
-/
def IsLeaveEvent (userId : String) (s : AppState) (m : String × Json) : Prop :=
  (∃ player ∈ s.players.values, player.id = m.1 ∧ player.userId = userId)
    ∧ ∃ clientId platform, m.2 = message 63
      [("event", .str "leave"), ("clientId", .str clientId), ("platform", .str platform)]

def requestedRoom (d : Json) : String := ((d.getStr? "gameId").map Text.trim).getD ""

/--
A program that keeps `P` along with the others, and what it queues for others than a session on the way.
-/
abbrev Tells (P : AppState → Prop) (sid : String) (allowed : AppState → String × Json → Prop) (Q : α → Prop)
    (p : Proto α) : Prop :=
  Prog.Guarantees P (fun s l => ∀ m ∈ l.queued, m.1 ≠ sid → allowed s m) Q p

theorem Tells.tellsOthers {P : AppState → Prop} {sid : String} {allowed : AppState → String × Json → Prop}
    {Q : α → Prop} {p : Proto α} (h : Tells P sid allowed Q p) : TellsOthers P sid allowed p :=
  fun _ _ _ _ hs run x hx => h.of_amid (fun _ _ hrely => hrely) run hs x hx

namespace Tells

section Pieces

variable {P : AppState → Prop} {sid : String} {allowed : AppState → String × Json → Prop}

theorem quiet (hframe : ∀ s s', s'.players = s.players → P s → P s') {f : Env → AppState → α × Label × AppState}
    (h : ∀ e s, (∀ m ∈ (f e s).2.1.queued, m.1 = sid) ∧ (f e s).2.2.players = s.players)
    : Tells P sid allowed (fun _ => True) (Prog.atom f) :=
  Prog.Guarantees.atom fun e s hs => ⟨fun m hm hne => absurd ((h e s).1 m hm) hne, hframe _ _ (h e s).2 hs, trivial⟩

theorem look {f : Env → AppState → α} {Q : α → Prop} (h : ∀ e s, P s → Q (f e s))
    : Tells P sid allowed Q (Lqxp.look f) :=
  Prog.Guarantees.atom fun e s hs => ⟨fun _ hm => absurd hm List.not_mem_nil, hs, h e s hs⟩

theorem any_look (f : Env → AppState → α) : Tells P sid allowed (fun _ => True) (Lqxp.look f) :=
  look fun _ _ _ => trivial

variable (hframe : ∀ s s', s'.players = s.players → P s → P s')

include hframe

theorem hitRateLimit (key : String) (limit windowMs : Nat)
    : Tells P sid allowed (fun _ => True) (hitRateLimit key limit windowMs) :=
  quiet hframe fun _ _ => ⟨fun _ hm => absurd hm List.not_mem_nil, rfl⟩

theorem roomRecord (roomId : String) : Tells P sid allowed (fun _ => True) (roomRecord roomId) :=
  quiet hframe fun _ _ => ⟨fun _ hm => absurd hm List.not_mem_nil, rfl⟩

theorem setRoomRecord (roomId : String) (room : RoomRecord)
    : Tells P sid allowed (fun _ => True) (setRoomRecord roomId room) := by
  refine quiet hframe fun e s => ?_
  split
  . exact ⟨fun _ hm => absurd hm List.not_mem_nil, rfl⟩
  . exact ⟨fun _ hm => absurd hm List.not_mem_nil, rfl⟩

theorem respondToSender (payload : Json) : Tells P sid allowed (fun _ => True) (respondToSender sid payload) := by
  refine quiet hframe fun e s => ?_
  split
  . exact ⟨fun m hm => congrArg Prod.fst (List.mem_singleton.1 hm), rfl⟩
  . exact ⟨fun _ hm => absurd hm List.not_mem_nil, rfl⟩

theorem respondError (op : Nat) (text : String) (reqId : Option String)
    : Tells P sid allowed (fun _ => True) (respondError sid op text reqId) :=
  (respondToSender hframe _).bind fun _ _ => .pure trivial

theorem respondOk (op : Nat) (d : List (String × Json)) (reqId : Option String)
    : Tells P sid allowed (fun _ => True) (respondOk sid op d reqId) :=
  (respondToSender hframe _).bind fun _ _ => .pure trivial

theorem syncRoomRecord (roomId : String) : Tells P sid allowed (fun _ => True) (syncRoomRecord roomId) := by
  refine (any_look _).bind fun usernames _ => (roomRecord hframe _).bind fun previous _ => ?_
  refine (setRoomRecord hframe _ _).bind fun stored _ => ?_
  split
  . exact .pure trivial
  . exact .pure trivial

theorem recordOrRoster (roomId : String) (viewer : Option String)
    : Tells P sid allowed (fun _ => True) (recordOrRoster roomId viewer) :=
  (roomRecord hframe _).bind fun _ _ => (any_look _).bind fun _ _ => .pure trivial

theorem dispatchRoomHistory (roomId : String) (reqId : Option String)
    : Tells P sid allowed (fun _ => True) (dispatchRoomHistory sid roomId reqId) :=
  (any_look _).bind fun _ _ =>
    (any_look _).bind fun _ _ => respondToSender hframe _

end Pieces

end Tells

section Hidden

variable {sid userId : String} {s s' : AppState}

theorem Hidden.frame (h : Hidden sid userId s) (hplayers : s'.players = s.players) : Hidden sid userId s' := by
  rw [Hidden, hplayers]
  exact h

theorem Hidden.modify (h : Hidden sid userId s) {f : PlayerSession → PlayerSession}
    (hf : ∀ player, (f player).userId = player.userId ∧ (f player).status = player.status
      ∧ (f player).deleteMessagesOnLeave = player.deleteMessagesOnLeave)
    (hplayers : s'.players = s.players.modify sid f) : Hidden sid userId s' := by
  intro player hplayer
  rw [hplayers, AssocMap.lookup_modify_self] at hplayer
  obtain ⟨old, hold, rfl⟩ := Option.map_eq_some_iff.1 hplayer
  rw [(hf old).1, (hf old).2.1, (hf old).2.2]
  exact h old hold

theorem enter_fields (roomId : String) (player : PlayerSession)
    : (player.enter roomId).userId = player.userId ∧ (player.enter roomId).status = player.status
        ∧ (player.enter roomId).deleteMessagesOnLeave = player.deleteMessagesOnLeave := by
  unfold PlayerSession.enter
  split
  . exact ⟨rfl, rfl, rfl⟩
  . exact ⟨rfl, rfl, rfl⟩

end Hidden

section Join

variable {sid userId : String}

theorem Lurks.frame (s s' : AppState) (hplayers : s'.players = s.players) (h : Lurks sid userId s)
    : Lurks sid userId s' :=
  ⟨h.1.frame hplayers, hplayers ▸ h.2⟩

theorem Lurks.modify {s s' : AppState} (h : Lurks sid userId s) {f : PlayerSession → PlayerSession}
    (hf : ∀ player, (f player).userId = player.userId ∧ (f player).status = player.status
      ∧ (f player).deleteMessagesOnLeave = player.deleteMessagesOnLeave)
    (hplayers : s'.players = s.players.modify sid f) : Lurks sid userId s' :=
  ⟨h.1.modify hf hplayers, by rw [hplayers, AssocMap.lookup_modify_self, Option.isSome_map]; exact h.2⟩

variable {allowed : AppState → String × Json → Prop}

theorem tells_enterRoom (roomId : String)
    : Tells (Lurks sid userId) sid allowed (fun _ => True) (enterRoom sid roomId) := by
  refine Prog.Guarantees.atom fun e s hs => ?_
  split
  . exact ⟨fun _ hm => absurd hm List.not_mem_nil, hs, trivial⟩
  . split
    . exact ⟨fun _ hm => absurd hm List.not_mem_nil, hs, trivial⟩
    . split
      . exact ⟨fun _ hm => absurd hm List.not_mem_nil, hs, trivial⟩
      . split
        . exact ⟨fun _ hm => absurd hm List.not_mem_nil, hs, trivial⟩
        . exact ⟨fun _ hm => absurd hm List.not_mem_nil, hs.modify (enter_fields roomId) rfl, trivial⟩

theorem tells_exitRoom (roomId : String)
    : Tells (Lurks sid userId) sid allowed (fun _ => True) (exitRoom sid roomId) :=
  Prog.Guarantees.atom fun _ _ hs =>
    ⟨fun _ hm => absurd hm List.not_mem_nil, hs.modify (f := (·.exit roomId)) (fun _ => ⟨rfl, rfl, rfl⟩) rfl, trivial⟩

theorem tells_completeJoin (roomId username account : String) (alreadyIn silentJoin : Bool) (reqId : Option String)
    : Tells (Lurks sid userId) sid allowed (fun _ => True)
        (completeJoin sid roomId username account alreadyIn silentJoin reqId) := by
  refine (Tells.look (Q := fun status => status = some .invisible) fun e s hs => ?_).bind fun status hstatus => ?_
  . obtain ⟨player, hplayer⟩ := Option.isSome_iff_exists.1 hs.2
    rw [hplayer, Option.map_some, (hs.1 player hplayer).2.1]
  . refine (Tells.recordOrRoster Lurks.frame _ _).bind fun room _ => ?_
    refine (Tells.any_look _).bind fun broadcastRosters _ => (Tells.any_look _).bind fun rosters _ => ?_
    rw [hstatus]
    simp only [ne_eq, not_true_eq_false, decide_false, Bool.and_false, Bool.false_eq_true, if_false]
    refine (Tells.respondOk Lurks.frame _ _ _).bind fun _ _ => ?_
    exact (Tells.dispatchRoomHistory Lurks.frame _ _).bind fun _ _ => .pure trivial

theorem tells_joinGame (d : Json) : Tells (Lurks sid userId) sid allowed (fun _ => True) (joinGame sid d) := by
  refine (Tells.hitRateLimit Lurks.frame _ _ _).bind fun limited _ => ?_
  split
  . exact Tells.respondError Lurks.frame _ _ _
  split
  . split
    . exact Tells.respondError Lurks.frame _ _ _
    refine (tells_enterRoom _).bind fun answer _ => ?_
    split
    . exact Tells.respondError Lurks.frame _ _ _
    split
    . exact tells_completeJoin _ _ _ _ _ _
    refine (Tells.roomRecord Lurks.frame _).bind fun room _ => ?_
    split
    . refine (tells_exitRoom _).bind fun _ _ => ?_
      exact (Tells.respondToSender Lurks.frame _).bind fun _ _ => .pure trivial
    . refine (Tells.syncRoomRecord Lurks.frame _).bind fun _ _ => ?_
      exact tells_completeJoin _ _ _ _ _ _
  . exact Tells.respondError Lurks.frame _ _ _

end Join

section Leave

variable {sid userId roomId : String}

theorem Hides.frame (s s' : AppState) (hplayers : s'.players = s.players) (h : Hides sid userId roomId s)
    : Hides sid userId roomId s' :=
  ⟨h.1.frame hplayers, by rw [Unseen, hplayers]; exact h.2⟩

theorem Hides.exit {s s' : AppState} (h : Hides sid userId roomId s) {roomId' : String}
    (hplayers : s'.players = s.players.modify sid (·.exit roomId')) : Hides sid userId roomId s' := by
  refine ⟨h.1.modify (f := (·.exit roomId')) (fun _ => ⟨rfl, rfl, rfl⟩) hplayers, ?_⟩
  rw [Unseen, hplayers]
  exact h.2.modify fun player _ hunseen huser hroom => hunseen huser (List.mem_of_mem_filter hroom)

variable {allowed : AppState → String × Json → Prop}

theorem tells_quitRoom (roomId' : String)
    : Tells (Hides sid userId roomId) sid allowed
        (fun answer => ∀ username clientId clears, answer = .ok (username, clientId, clears) → clears = false)
        (quitRoom sid roomId') := by
  refine Prog.Guarantees.atom fun e s hs => ?_
  split
  . exact ⟨fun _ hm => absurd hm List.not_mem_nil, hs, fun _ _ _ h => by simp at h⟩
  next player hplayer =>
    split
    . refine ⟨fun _ hm => absurd hm List.not_mem_nil, hs.exit rfl, fun _ _ clears h => ?_⟩
      obtain rfl : player.deleteMessagesOnLeave = clears := by
        simp only [Except.ok.injEq, Prod.mk.injEq] at h
        exact h.2.2
      exact (hs.1 player hplayer).2.2
    . exact ⟨fun _ hm => absurd hm List.not_mem_nil, hs, fun _ _ _ h => by simp at h⟩

theorem ne_of_mem_visiblePlayers {s : AppState} (h : Unseen userId roomId s) {player : PlayerSession}
    (hmem : player ∈ visiblePlayers s.players roomId none) : player.userId ≠ userId := by
  intro huser
  obtain ⟨hvalue, hvisible⟩ := List.mem_filter.1 hmem
  obtain ⟨k, hplayer⟩ := AssocMap.exists_lookup_of_mem_values hvalue
  have hroom : roomId ∈ player.rooms := by simpa using (Bool.and_eq_true_iff.1 hvisible).1
  have hinvisible := h k player hplayer huser hroom
  simp [isVisibleTo, hinvisible] at hvisible

theorem listsOthers_message (op : Nat) {username clientId : String} {room : Json} {others : List PlayerSession}
    (h : ∀ player ∈ others, player.userId ≠ userId)
    : ListsOthers userId roomId (message op (
        [("gameId", .str roomId), ("left", .str username), ("clientId", .str clientId)]
          ++ rosterFields roomId others ++ [("room", room)])) := by
  refine ⟨others, h, fun x hx => ?_⟩
  simp only [rosterFields, List.mem_cons, List.not_mem_nil, or_false] at hx
  rcases hx with rfl | rfl | rfl | rfl | rfl | rfl <;> rfl

theorem tells_leaveGame (d : Json)
    : Tells (Hides sid userId (requestedRoom d)) sid (fun _ m => ListsOthers userId (requestedRoom d) m.2)
        (fun _ => True) (leaveGame sid d) := by
  refine (Tells.hitRateLimit Hides.frame _ _ _).bind fun limited _ => ?_
  split
  . exact Tells.respondError Hides.frame _ _ _
  split
  next roomId hroom =>
    obtain rfl : requestedRoom d = roomId := by rw [requestedRoom, hroom, Option.getD_some]
    split
    . exact Tells.respondError Hides.frame _ _ _
    refine (tells_quitRoom _).bind fun answer hanswer => ?_
    split
    . exact Tells.respondError Hides.frame _ _ _
    next username clientId clears =>
      obtain rfl := hanswer username clientId clears rfl
      refine (Tells.syncRoomRecord Hides.frame _).bind fun _ _ => ?_
      rw [roomRosters_eq]
      refine (Tells.look (Q := fun rosters => ∃ others : List PlayerSession,
        (∀ player ∈ others, player.userId ≠ userId) ∧ rosters = rosterFields (requestedRoom d) others)
        fun e s hs => ⟨_, fun _ => ne_of_mem_visiblePlayers hs.2, rfl⟩).bind fun rosters hrosters => ?_
      obtain ⟨others, hothers, rfl⟩ := hrosters
      refine (Tells.recordOrRoster Hides.frame _ _).bind fun room _ => ?_
      refine Prog.Guarantees.bind (Q := fun _ => True) (Prog.Guarantees.atom fun e s hs => ?_) fun _ _ => ?_
      . refine ⟨fun m hm _ => ?_, hs, trivial⟩
        obtain ⟨k, -, rfl⟩ := List.mem_map.1 hm
        exact listsOthers_message 4 hothers
      . exact Prog.Guarantees.bind (Q := fun _ => True) (.pure trivial) fun _ _ => Tells.respondOk Hides.frame _ _ _
  . exact Tells.respondError Hides.frame _ _ _

end Leave

section Disconnect

variable {sid userId : String} {allowed : AppState → String × Json → Prop}

theorem Hidden.erase {s s' : AppState} (hplayers : s'.players = s.players.erase sid) : Hidden sid userId s' := by
  intro player hplayer
  rw [hplayers, AssocMap.lookup_erase, if_pos rfl] at hplayer
  contradiction

theorem tells_removePlayer
    : Tells (Hidden sid userId) sid allowed (fun removed => ∀ player, removed = some player →
        player.userId = userId ∧ player.status = .invisible ∧ player.deleteMessagesOnLeave = false)
        (removePlayer sid) := by
  refine Prog.Guarantees.atom fun e s hs => ?_
  split
  next player hplayer =>
    refine ⟨fun _ hm => absurd hm List.not_mem_nil, Hidden.erase rfl, fun now hnow => ?_⟩
    obtain rfl := Option.some.inj hnow
    exact hs player hplayer
  . exact ⟨fun _ hm => absurd hm List.not_mem_nil, hs, fun _ h => nomatch h⟩

theorem tells_broadcastSyncPeerEvent (clientId platform : String)
    : Tells (Hidden sid userId) sid (IsLeaveEvent userId) (fun _ => True)
        (broadcastSyncPeerEvent userId "leave" clientId platform none) := by
  unfold broadcastSyncPeerEvent
  split
  . exact .pure trivial
  . refine Prog.Guarantees.atom fun e s hs => ⟨fun m hm _ => ?_, hs, trivial⟩
    obtain ⟨k, hk, rfl⟩ := List.mem_map.1 hm
    obtain ⟨player, hplayer, rfl⟩ := List.mem_map.1 hk
    obtain ⟨hvalue, huser⟩ := List.mem_filter.1 hplayer
    exact ⟨⟨player, hvalue, rfl, by simpa using huser⟩, clientId, platform, rfl⟩

theorem tells_leaveBehindAll {player : PlayerSession} (hstatus : player.status = .invisible)
    (hkeeps : player.deleteMessagesOnLeave = false) (rooms : List String)
    : Tells (Hidden sid userId) sid allowed (fun _ => True) (leaveBehindAll player rooms) := by
  have hframe (s s' : AppState) (hplayers : s'.players = s.players) (h : Hidden sid userId s) := h.frame hplayers
  induction rooms with
  | nil => exact .pure trivial
  | cons gameId rooms ih =>
    refine Prog.Guarantees.bind (Q := fun _ => True) ?_ fun _ _ => ih
    rw [leaveBehind, announceLeft, announceHungUp, if_pos hstatus, if_pos hstatus, hkeeps]
    refine (Tells.syncRoomRecord hframe _).bind fun _ _ => ?_
    exact .pure trivial

theorem tells_disconnectPlayer
    : Tells (Hidden sid userId) sid (IsLeaveEvent userId) (fun _ => True) (disconnectPlayer sid) := by
  refine tells_removePlayer.bind fun removed hremoved => ?_
  split
  next player =>
    obtain ⟨rfl, hstatus, hkeeps⟩ := hremoved player rfl
    split
    . exact (tells_broadcastSyncPeerEvent _ _).bind fun _ _ => tells_leaveBehindAll hstatus hkeeps _
    . exact tells_leaveBehindAll hstatus hkeeps _
  . exact .pure trivial

end Disconnect

/--
A hidden session that joins a room tells others nothing, and one that disconnects tells the other devices of its
account that it is gone. The rosters that others get when it leaves a room list other accounts only.
-/
theorem hidden_untold (sid userId : String) (d : Json)
    : TellsOthers (Lurks sid userId) sid (fun _ _ => False) (joinGame sid d)
        ∧ TellsOthers (Hides sid userId (requestedRoom d)) sid
          (fun _ m => ListsOthers userId (requestedRoom d) m.2) (leaveGame sid d)
        ∧ TellsOthers (Hidden sid userId) sid (IsLeaveEvent userId) (disconnectPlayer sid) :=
  ⟨(tells_joinGame d).tellsOthers, (tells_leaveGame d).tellsOthers, tells_disconnectPlayer.tellsOthers⟩

/--
A phone that is invisible, and a tablet of the same account.
-/
def phoneAndTablet : AppState :=
  let players : AssocMap String PlayerSession := ∅
  let phone :=
    { id := "phone", userId := "ada", username := "ada", clientId := "cell", status := .invisible }
  { players := (players.insert "phone" phone).insert "tablet"
      { id := "tablet", userId := "ada", username := "ada", clientId := "tab" } }

/--
The tablet hears the client id of the phone when it disconnects.
-/
theorem not_untold_leave
    : ¬∀ (s s' : AppState) (sid : String) (player : PlayerSession) (tr : List (Env × Label)),
        s.players.lookup sid = some player → player.status = .invisible → player.deleteMessagesOnLeave = false →
        (∀ roomId, Unseen player.userId roomId s) → Prog.Trace (disconnectPlayer sid) s tr () s' →
        ∀ m ∈ queued tr, m.1 ≠ sid → ¬player.clientId.toList <:+: m.2.render.toList := by
  intro h
  have hunseen (roomId : String) : Unseen "ada" roomId phoneAndTablet :=
    AssocMap.All.insert (AssocMap.All.insert AssocMap.All.empty fun _ _ => rfl) fun _ hroom => nomatch hroom
  have hqueued : queued (Prog.play .calm (disconnectPlayer "phone") phoneAndTablet).1
      = [("tablet", message 63
        [("event", .str "leave"), ("clientId", .str "cell"), ("platform", .str "web")])] := rfl
  refine h phoneAndTablet _ "phone" _ _ rfl rfl rfl hunseen (Prog.trace_play .calm _ _) _
    (hqueued ▸ List.mem_singleton_self _) (by decide) ?_
  decide

end Lqxp
