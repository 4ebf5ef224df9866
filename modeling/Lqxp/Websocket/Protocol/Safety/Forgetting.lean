import Lqxp.Websocket.Protocol.System
import Lqxp.Websocket.Protocol.Lemmas.Replies
import Lqxp.Websocket.Protocol.Lemmas.Traces
import Lqxp.Presence.Consistency
import Lqxp.Prog.Rely
import Lqxp.Prog.Trace

/-!
This module contains the safety of deleting a room: when a room that is created under the id of a deleted one is
like one whose id has never been in use.
-/

namespace Lqxp

/--
The requests about rooms and messages together with those about presence and calls.
-/
inductive RoomRequest where
  | room (req : Request)
  | presence (req : PresenceRequest)

def RoomRequest.handle : RoomRequest → Proto Unit
  | .room req => req.handle
  | .presence req => req.handle

section Forgetting

/--
A session without what it has to do with a room.
-/
def PlayerSession.forget (player : PlayerSession) (roomId : String) : PlayerSession :=
  if player.callRoom = some roomId then (player.exit roomId).hangUp else player.exit roomId

namespace AppState

/--
The state as it would be, had the room never been used.
-/
def forget (s : AppState) (roomId : String) : AppState :=
  { s with
    players := s.players.mapValues fun _ player => player.forget roomId
    roomMessages := s.roomMessages.erase roomId
    database := s.database.erase roomId
    previewTasks := s.previewTasks.filter (·.room ≠ roomId)
    callAccessOverrides := s.callAccessOverrides.filter (· ≠ roomId) }

/--
The messages that each of the requests queues, when the steps get their inputs from the supplies.
-/
def answers (s : AppState) (requests : List (RoomRequest × (Nat → Env))) : List (List (String × Json)) :=
  (Prog.feedAll RoomRequest.handle requests s).map fun labels => labels.flatMap Label.queued

/--
Whatever is requested once the room is created, is answered as if the room had never been used.
-/
def Forgets (s : AppState) (roomId : String) : Prop :=
  ∀ sid d supply later record,
    .created roomId record ∈ (Prog.feed supply (createRoom sid d) s).1 →
      s.answers ((.room (.message sid .create d), supply) :: later)
        = (s.forget roomId).answers ((.room (.message sid .create d), supply) :: later)

/--
The state moves without anything of the room coming into being, as it does when handlers of other rooms run.
-/
structure BringsNothing (roomId : String) (s s' : AppState) : Prop where
  record : s.database.lookup roomId = none → s'.database.lookup roomId = none
  messages : s.roomMessages.lookup roomId = none → s'.roomMessages.lookup roomId = none
  members (sid : String) (player' : PlayerSession)
    : s'.players.lookup sid = some player' → roomId ∈ player'.rooms →
        ∃ player, s.players.lookup sid = some player ∧ roomId ∈ player.rooms
  calls (sid : String) (player' : PlayerSession)
    : s'.players.lookup sid = some player' → player'.callRoom = some roomId →
        ∃ player, s.players.lookup sid = some player ∧ player.callRoom = some roomId
  tasks (task : PreviewTask) : task ∈ s'.previewTasks → task.room = roomId → task ∈ s.previewTasks
  overrides : roomId ∈ s'.callAccessOverrides → roomId ∈ s.callAccessOverrides

theorem BringsNothing.refl (roomId : String) (s : AppState) : BringsNothing roomId s s :=
  ⟨id, id, fun _ player hplayer hroom => ⟨player, hplayer, hroom⟩,
    fun _ player hplayer hcall => ⟨player, hplayer, hcall⟩, fun _ hmem _ => hmem, id⟩

end AppState

end Forgetting

/--
A step of the deletion of a room, with the labels of the steps before it.
-/
def DeletionStep (labels : List Label) (_ : Env) (s : AppState) (l : Label) (s' : AppState) : Prop :=
  match l with
  | .quiet => ∃ rateLimits, s' = { s with rateLimits }
  | .file _ => ∃ uploads, s' = { s with uploads }
  | .erased roomId => s' = { s with database := s.database.erase roomId }
  | .emptied roomId =>
    .erased roomId ∈ labels
      ∧ s' = { s with
        players := s.players.mapValues fun _ player => player.exit roomId
        roomMessages := s.roomMessages.erase roomId }
  | .reply _ payload => s' = s ∧ (isOk 57 payload = true → ∃ roomId, .emptied roomId ∈ labels)
  | _ => s' = s

abbrev Deleting (post : α → List Label → Prop) (p : Proto α) (labels : List Label) : Prop :=
  Prog.Spec (fun labels l => labels ++ [l]) DeletionStep post p labels

namespace Deleting

variable {labels : List Label}

theorem bind {p : Proto α} {f : α → Proto β} (hp : Deleting (fun _ _ => True) p labels)
    (hf : ∀ a labels', Deleting (fun _ _ => True) (f a) labels') : Deleting (fun _ _ => True) (p >>= f) labels :=
  Prog.Spec.bind_iff.2 (hp.mono fun a labels' _ => hf a labels')

theorem look (f : Env → AppState → α) : Deleting (fun _ _ => True) (look f) labels :=
  fun _ s => ⟨⟨s.rateLimits, rfl⟩, trivial⟩

theorem hitRateLimit (key : String) (limit windowMs : Nat)
    : Deleting (fun _ _ => True) (hitRateLimit key limit windowMs) labels :=
  fun _ _ => ⟨⟨_, rfl⟩, trivial⟩

theorem respondToSender (sid : String) {payload : Json}
    (hok : isOk 57 payload = true → ∃ roomId, .emptied roomId ∈ labels)
    : Deleting (fun _ _ => True) (respondToSender sid payload) labels := by
  refine Prog.Spec.atom_iff.2 fun e s => ?_
  cases s.players.lookup sid with
  | none => exact ⟨⟨s.rateLimits, rfl⟩, trivial⟩
  | some player => exact ⟨⟨rfl, hok⟩, trivial⟩

theorem respondError (sid : String) (op : Nat) (text : String) (reqId : Option String)
    : Deleting (fun _ _ => True) (respondError sid op text reqId) labels := by
  refine .bind (.respondToSender sid fun hok => ?_) fun _ _ => trivial
  rw [isOk_withRequestId] at hok
  simp [isOk, message, Json.get?, Json.getBool?, List.lookup_cons] at hok

theorem respondOk (sid : String) (op : Nat) (d : List (String × Json)) (reqId : Option String) {roomId : String}
    (hemptied : .emptied roomId ∈ labels) : Deleting (fun _ _ => True) (respondOk sid op d reqId) labels :=
  .bind (.respondToSender sid fun _ => ⟨roomId, hemptied⟩) fun _ _ => trivial

theorem roomRecord (roomId : String) : Deleting (fun _ _ => True) (roomRecord roomId) labels :=
  fun _ _ => ⟨rfl, trivial⟩

theorem sessionIdentity (sid : String) : Deleting (fun _ _ => True) (sessionIdentity sid) labels := by
  have hplayer : Deleting (fun _ _ => True) (getPlayer sid) labels := by
    refine Prog.Spec.atom_iff.2 fun e s => ?_
    cases s.players.lookup sid with
    | none => exact ⟨⟨s.rateLimits, rfl⟩, trivial⟩
    | some player => exact ⟨rfl, trivial⟩
  refine .bind hplayer fun player labels' => ?_
  cases player with
  | none => trivial
  | some player =>
    dsimp only
    split
    . trivial
    . trivial

theorem removeIconFile (icon : Option RoomIcon) : Deleting (fun _ _ => True) (removeIconFile icon) labels := by
  cases icon with
  | none => trivial
  | some icon =>
    refine Prog.Spec.atom_iff.2 fun e s => ?_
    split
    . exact ⟨⟨s.rateLimits, rfl⟩, trivial⟩
    . exact ⟨⟨_, rfl⟩, trivial⟩

theorem communityRequest {op : Nat} {key : String} {limit windowMs : Nat} {notCommunity sid : String} {d : Json}
    {body : String × String → String → RoomRecord → Proto Bool}
    (hbody : ∀ actor roomId room labels', Deleting (fun _ _ => True) (body actor roomId room) labels')
    : Deleting (fun _ _ => True) (communityRequest op key limit windowMs notCommunity sid d body) labels := by
  refine .bind (.hitRateLimit _ _ _) fun hit labels₁ => ?_
  split
  . exact .respondError _ _ _ _
  refine .bind (.sessionIdentity sid) fun actor labels₂ => ?_
  cases actor with
  | none => exact .respondError _ _ _ _
  | some actor =>
    refine .bind (.look _) fun found labels₃ => ?_
    cases found with
    | error text => exact .respondError _ _ _ _
    | ok roomId =>
      refine .bind (.roomRecord roomId) fun room labels₄ => ?_
      cases room with
      | none => exact .respondError _ _ _ _
      | some room =>
        dsimp only
        split
        . exact .respondError _ _ _ _
        . exact hbody _ _ _ _

theorem deleteRoom (roomId : String)
    : Deleting (fun deleted labels' => deleted = true → .erased roomId ∈ labels') (deleteRoom roomId) labels := by
  refine Prog.Spec.atom_iff.2 fun e s => ?_
  split
  . exact ⟨⟨s.rateLimits, rfl⟩, nofun⟩
  . exact ⟨rfl, fun _ => List.mem_append_right _ (List.mem_singleton_self _)⟩

theorem deleteRoomOp (sid : String) (d : Json) : Deleting (fun _ _ => True) (deleteRoomOp sid d) labels := by
  refine .communityRequest fun actor roomId room labels₁ => .bind (.look _) fun isServerAdmin labels₂ => ?_
  split
  . exact .respondError _ _ _ _
  refine .bind (.removeIconFile _) fun _ labels₃ => ?_
  refine Prog.Spec.bind_iff.2 ((deleteRoom roomId).mono fun deleted labels₄ herased => ?_)
  split
  next hdeleted =>
    refine Prog.Spec.bind_iff.2 (Prog.Spec.atom_iff.2 fun e s => ⟨⟨herased hdeleted, rfl⟩, ?_⟩)
    refine Prog.Spec.bind_iff.2 (Prog.Spec.atom_iff.2 fun e s => ⟨rfl, ?_⟩)
    exact respondOk _ _ _ _ (List.mem_append_left _ (List.mem_append_right _ (List.mem_singleton_self _)))
  next => exact respondError _ _ _ _

end Deleting

section Deletion

variable {s s' : AppState} {tr : List (Env × Label)} {sid roomId : String} {d : Json} {b : Bool}

/--
Nothing of calls or pending tasks refers to the room, and what its deletion has removed so far is gone.
-/
structure Forgotten (roomId : String) (labels : List Label) (s : AppState) : Prop where
  calls (sid : String) (player : PlayerSession)
    : s.players.lookup sid = some player → player.callRoom ≠ some roomId
  tasks (task : PreviewTask) : task ∈ s.previewTasks → task.room ≠ roomId
  overrides : roomId ∉ s.callAccessOverrides
  record : .erased roomId ∈ labels → s.database.lookup roomId = none
  messages : .emptied roomId ∈ labels → s.roomMessages.lookup roomId = none
  members (sid : String) (player : PlayerSession)
    : .emptied roomId ∈ labels → s.players.lookup sid = some player → roomId ∉ player.rooms
  order : .emptied roomId ∈ labels → .erased roomId ∈ labels

namespace Forgotten

variable {labels : List Label}

theorem bringsNothing (h : Forgotten roomId labels s) (hmove : s.BringsNothing roomId s') : Forgotten roomId labels s' := by
  refine ⟨?_, ?_, fun hmem => h.overrides (hmove.overrides hmem), fun herased => hmove.record (h.record herased),
    fun hemptied => hmove.messages (h.messages hemptied), ?_, h.order⟩
  . intro sid player' hplayer' hcall
    obtain ⟨player, hplayer, hcall⟩ := hmove.calls sid player' hplayer' hcall
    exact h.calls sid player hplayer hcall
  . intro task hmem hroom
    exact h.tasks task (hmove.tasks task hmem hroom) hroom
  . intro sid player' hemptied hplayer' hroom
    obtain ⟨player, hplayer, hroom⟩ := hmove.members sid player' hplayer' hroom
    exact h.members sid player hemptied hplayer hroom

theorem concat {l : Label} (h : Forgotten roomId labels s') (herased : l ≠ .erased roomId) (hemptied : l ≠ .emptied roomId)
    : Forgotten roomId (labels ++ [l]) s' := by
  have hback {l' : Label} (hne : l ≠ l') (hmem : l' ∈ labels ++ [l]) : l' ∈ labels := by
    rcases List.mem_append.1 hmem with hmem | hmem
    . exact hmem
    . exact absurd (List.mem_singleton.1 hmem).symm hne
  exact ⟨h.calls, h.tasks, h.overrides, fun hmem => h.record (hback herased hmem),
    fun hmem => h.messages (hback hemptied hmem), fun sid player hmem => h.members sid player (hback hemptied hmem),
    fun hmem => List.mem_append_left _ (h.order (hback hemptied hmem))⟩

theorem step {e : Env} {l : Label} (hstep : DeletionStep labels e s l s') (h : Forgotten roomId labels s)
    : Forgotten roomId (labels ++ [l]) s' := by
  cases l with
  | quiet =>
    obtain ⟨rateLimits, rfl⟩ := hstep
    exact concat ⟨h.calls, h.tasks, h.overrides, h.record, h.messages, h.members, h.order⟩ nofun nofun
  | file change =>
    obtain ⟨uploads, rfl⟩ := hstep
    exact concat ⟨h.calls, h.tasks, h.overrides, h.record, h.messages, h.members, h.order⟩ nofun nofun
  | erased roomId' =>
    obtain rfl := hstep
    refine ⟨h.calls, h.tasks, h.overrides, fun hmem => ?_, fun hmem => h.messages (by simpa using hmem),
      fun sid player hmem => h.members sid player (by simpa using hmem), fun hmem => ?_⟩
    . rw [AssocMap.lookup_erase]
      split
      . rfl
      next hne =>
        refine h.record ?_
        rcases List.mem_append.1 hmem with hmem | hmem
        . exact hmem
        . exact absurd (Label.erased.inj (List.mem_singleton.1 hmem)) hne
    . exact List.mem_append_left _ (h.order (by simpa using hmem))
  | emptied roomId' =>
    obtain ⟨herased, rfl⟩ := hstep
    have hcalls (sid : String) (player : PlayerSession)
        (hplayer : (s.players.mapValues fun _ player => player.exit roomId').lookup sid = some player)
        : ∃ player₀, s.players.lookup sid = some player₀ ∧ player = player₀.exit roomId' := by
      rw [AssocMap.lookup_mapValues] at hplayer
      obtain ⟨player₀, hplayer₀, rfl⟩ := Option.map_eq_some_iff.1 hplayer
      exact ⟨player₀, hplayer₀, rfl⟩
    refine ⟨fun sid player hplayer => ?_, h.tasks, h.overrides, fun hmem => h.record (by simpa using hmem), fun hmem => ?_,
      fun sid player hmem hplayer => ?_, fun hmem => List.mem_append_left _ ?_⟩
    . obtain ⟨player₀, hplayer₀, rfl⟩ := hcalls sid player hplayer
      exact h.calls sid player₀ hplayer₀
    . rw [AssocMap.lookup_erase]
      split
      . rfl
      next hne =>
        refine h.messages ?_
        rcases List.mem_append.1 hmem with hmem | hmem
        . exact hmem
        . exact absurd (Label.emptied.inj (List.mem_singleton.1 hmem)) hne
    . obtain ⟨player₀, hplayer₀, rfl⟩ := hcalls sid player hplayer
      intro hroom
      obtain ⟨hroom, hne⟩ := List.mem_filter.1 hroom
      rcases List.mem_append.1 hmem with hmem | hmem
      . exact h.members sid player₀ hmem hplayer₀ hroom
      . exact of_decide_eq_true hne (Label.emptied.inj (List.mem_singleton.1 hmem))
    . rcases List.mem_append.1 hmem with hmem | hmem
      . exact h.order hmem
      . rwa [Label.emptied.inj (List.mem_singleton.1 hmem)]
  | reply sid payload =>
    obtain ⟨rfl, -⟩ := hstep
    exact concat h nofun nofun
  | _ =>
    obtain rfl := hstep
    exact concat h nofun nofun

theorem forget_eq (h : Forgotten roomId labels s) (hemptied : .emptied roomId ∈ labels) : s.forget roomId = s := by
  have hplayers : (s.players.mapValues fun _ player => player.forget roomId) = s.players := by
    refine AssocMap.mapValues_eq_self fun sid player hplayer => ?_
    have hout := h.members sid player hemptied hplayer
    rw [PlayerSession.forget, if_neg (h.calls sid player hplayer), PlayerSession.exit, List.filter_eq_self.2]
    exact fun room hroom => decide_eq_true fun heq => hout (heq ▸ hroom)
  have hmessages : s.roomMessages.erase roomId = s.roomMessages :=
    AssocMap.erase_eq_self (h.messages hemptied)
  have hdatabase : s.database.erase roomId = s.database := AssocMap.erase_eq_self (h.record (h.order hemptied))
  have htasks : s.previewTasks.filter (·.room ≠ roomId) = s.previewTasks :=
    List.filter_eq_self.2 fun task hmem => decide_eq_true (h.tasks task hmem)
  have hoverrides : s.callAccessOverrides.filter (· ≠ roomId) = s.callAccessOverrides :=
    List.filter_eq_self.2 fun room hmem => decide_eq_true fun heq => h.overrides (heq ▸ hmem)
  rw [AppState.forget, hplayers, hmessages, hdatabase, htasks, hoverrides]

end Forgotten

theorem emptied_of_confirmed {rely : AppState → AppState → Prop} (hrun : Prog.Amid rely (deleteRoomOp sid d) s tr b s')
    {sid' : String} {payload : Json} (hmem : .reply sid' payload ∈ tr.map (·.2)) (hok : isOk 57 payload = true)
    : ∃ roomId, .emptied roomId ∈ tr.map (·.2) := by
  let told (labels : List Label) (_ : AppState) : Prop :=
    ∀ sid payload, .reply sid payload ∈ labels → isOk 57 payload = true → ∃ roomId, .emptied roomId ∈ labels
  have hstart : told [] s := fun _ _ hmem => absurd hmem List.not_mem_nil
  have hend : told ([] ++ tr.map (·.2)) s' := by
    refine hrun.of_spec (I := told) (h := []) (fun _ _ _ _ h => h) (fun labels e s l s' hstep h => ?_)
      (Deleting.deleteRoomOp sid d) hstart
    intro sid payload hmem hok
    have hbefore : ∃ roomId, .emptied roomId ∈ labels := by
      rcases List.mem_append.1 hmem with hmem | hmem
      . exact h sid payload hmem hok
      . obtain rfl := List.mem_singleton.1 hmem
        exact hstep.2 hok
    obtain ⟨roomId, hemptied⟩ := hbefore
    exact ⟨roomId, List.mem_append_left _ hemptied⟩
  exact hend sid' payload hmem hok

/--
A deletion amid the handlers of other rooms forgets the room, as long as its calls are not open against its setting
and no session is in a call there.
-/
theorem forgets_of_deleted (hrun : Prog.Amid (AppState.BringsNothing roomId) (deleteRoomOp sid d) s tr b s')
    (hdeleted : .emptied roomId ∈ tr.map (·.2)) (htasks : ∀ task ∈ s.previewTasks, task.room ≠ roomId)
    (hoverrides : roomId ∉ s.callAccessOverrides)
    (hcalls : ∀ sid player, s.players.lookup sid = some player → player.callRoom ≠ some roomId)
    : s'.Forgets roomId := by
  have hstart : Forgotten roomId [] s :=
    ⟨hcalls, htasks, hoverrides, fun h => absurd h List.not_mem_nil, fun h => absurd h List.not_mem_nil,
      fun _ _ h => absurd h List.not_mem_nil, fun h => absurd h List.not_mem_nil⟩
  have hend : Forgotten roomId ([] ++ tr.map (·.2)) s' :=
    hrun.of_spec (I := Forgotten roomId) (h := []) (fun _ _ _ hmove h => h.bringsNothing hmove)
      (fun _ _ _ _ _ hstep h => h.step hstep) (Deleting.deleteRoomOp sid d) hstart
  rw [List.nil_append] at hend
  intro sid d supply later record _
  rw [hend.forget_eq hdeleted]

end Deletion

section Lobby

def createRequest (roomId : String) : Json := .obj [("roomId", .str roomId)]

def accessRequest (roomId : String) (allowMembers : Bool) : Json :=
  .obj [("gameId", .str roomId), ("allowMembers", .bool allowMembers)]

def callModeRequest (roomId : String) (enabled : Bool) : Json :=
  .obj [("gameId", .str roomId), ("enabled", .bool enabled)]

def openLobby : List (RoomRequest × Env) :=
  [(.presence (.connect "anna"), .calm), (.presence (.identify "anna" (tokenRequest "a")), .calm),
    (.presence (.connect "boris"), .calm), (.presence (.identify "boris" (tokenRequest "b")), .calm),
    (.room (.message "anna" .create (createRequest "lobby123")), .calm),
    (.presence (.join "anna" (roomRequest "lobby123")), .calm)]

/--
Boris joins the room, whose calls Anna closes to its members, and tries to enter a call.
-/
def callLobby : List (RoomRequest × (Nat → Env)) :=
  [.presence (.join "anna" (roomRequest "lobby123")), .presence (.join "boris" (roomRequest "lobby123")),
    .room (.message "anna" .callsEnabled (callModeRequest "lobby123" false)),
    .presence (.voice "boris" (callRequest "lobby123" true))].map fun req => (req, fun _ => .calm)

def Label.empties (roomId : String) : Label → Bool
  | .emptied roomId' => roomId' = roomId
  | _ => false

theorem mem_of_any_empties {labels : List Label} {roomId : String} (h : labels.any (·.empties roomId))
    : .emptied roomId ∈ labels := by
  obtain ⟨l, hmem, hempties⟩ := List.any_eq_true.1 h
  cases l with
  | emptied roomId' =>
    obtain rfl : roomId' = roomId := of_decide_eq_true hempties
    exact hmem
  | _ => contradiction

def Label.creates (roomId : String) : Label → Bool
  | .created roomId' _ => roomId' = roomId
  | _ => false

theorem exists_mem_of_any_creates {labels : List Label} {roomId : String} (h : labels.any (·.creates roomId))
    : ∃ record, .created roomId record ∈ labels := by
  obtain ⟨l, hmem, hcreates⟩ := List.any_eq_true.1 h
  cases l with
  | created roomId' record =>
    obtain rfl : roomId' = roomId := of_decide_eq_true hcreates
    exact ⟨record, hmem⟩
  | _ => contradiction

def deleteLobby (s : AppState) : List (Env × Label) × Bool × AppState :=
  (deleteRoomOp "anna" (roomRequest "lobby123")).play .calm s

theorem trace_deleteLobby (s : AppState)
    : Prog.Trace (deleteRoomOp "anna" (roomRequest "lobby123")) s (deleteLobby s).1 (deleteLobby s).2.1
        (deleteLobby s).2.2 := by
  unfold deleteLobby
  exact Prog.trace_play _ _ _

def useLobby : List (RoomRequest × (Nat → Env)) :=
  (.room (.message "anna" .create (createRequest "lobby123")), fun _ => .calm) :: callLobby

def confirmedCalls (answers : List (List (String × Json))) : List (List (String × Bool)) :=
  answers.map fun messages => messages.map fun m => (m.1, isOk 98 m.2)

theorem forgets_openLobby
    : ∃ log s tr b s', Prog.Served RoomRequest.handle (fun _ _ _ => True) twoUsers log s
        ∧ Prog.Trace (deleteRoomOp "anna" (roomRequest "lobby123")) s tr b s'
        ∧ .emptied "lobby123" ∈ tr.map (·.2) ∧ s'.Forgets "lobby123" := by
  have hplay : ((Prog.Served.playAll RoomRequest.handle (fun _ _ _ => true) openLobby twoUsers).map (·.2)).bind
      (fun s => some (s.previewTasks.map (·.room), s.callAccessOverrides, s.players.values.map (·.callRoom),
        ((deleteLobby s).1.map (·.2)).any (·.empties "lobby123")))
      = some ([], [], [none, none], true) := by decide +kernel
  obtain ⟨log, s, hserved, hvalues⟩ := Prog.Served.exists_of_playAll hplay
  simp only [Option.some.injEq, Prod.mk.injEq, List.map_eq_nil_iff] at hvalues
  obtain ⟨htasks, hoverrides, hcalls, hempties⟩ := hvalues
  have hrun := trace_deleteLobby s
  have hdeleted := mem_of_any_empties hempties
  refine ⟨log, s, _, _, _, hserved.mono fun _ _ _ _ => trivial, hrun, hdeleted, ?_⟩
  refine forgets_of_deleted (hrun.amid (AppState.BringsNothing.refl _)) hdeleted ?_ ?_ ?_
  . rw [htasks]
    exact fun task hmem => absurd hmem List.not_mem_nil
  . rw [hoverrides]
    exact List.not_mem_nil
  . intro sid player hplayer hcall
    have hmem := List.mem_map_of_mem (f := PlayerSession.callRoom) (AssocMap.mem_values_of_lookup hplayer)
    rw [hcalls, hcall] at hmem
    simp at hmem

/--
Before Anna deletes the room, she opens its calls to the members against its setting.
-/
theorem not_forgets
    : ¬∀ start s log, start.players = ∅ → start.database = ∅ → start.roomMessages = ∅ → start.previewTasks = [] →
        start.callAccessOverrides = [] → Prog.Served RoomRequest.handle (fun _ _ _ => True) start log s →
          ∀ roomId sid d tr b s', Prog.Amid (AppState.BringsNothing roomId) (deleteRoomOp sid d) s tr b s' →
            .emptied roomId ∈ tr.map (·.2) → (∀ task ∈ s.previewTasks, task.room ≠ roomId) → s'.Forgets roomId := by
  intro hall
  have hplay : ((Prog.Served.playAll RoomRequest.handle (fun _ _ _ => true)
        (openLobby ++ [(.presence (.callAccess "anna" (accessRequest "lobby123" true)), .calm)]) twoUsers).map
          (·.2)).bind
      (fun s => some (s.previewTasks.map (·.room), ((deleteLobby s).1.map (·.2)).any (·.empties "lobby123"),
        (Prog.feed (fun _ => Env.calm) (createRoom "anna" (createRequest "lobby123")) (deleteLobby s).2.2).1.any
          (·.creates "lobby123"),
        decide (confirmedCalls ((deleteLobby s).2.2.answers useLobby)
          = confirmedCalls (((deleteLobby s).2.2.forget "lobby123").answers useLobby))))
      = some ([], true, true, false) := by decide +kernel
  obtain ⟨log, s, hserved, hvalues⟩ := Prog.Served.exists_of_playAll hplay
  simp only [Option.some.injEq, Prod.mk.injEq, List.map_eq_nil_iff] at hvalues
  obtain ⟨htasks, hempties, hcreates, hdiffer⟩ := hvalues
  have hrun := trace_deleteLobby s
  generalize deleteLobby s = result at hrun hempties hcreates hdiffer
  obtain ⟨tr, b, s'⟩ := result
  obtain ⟨record, hcreated⟩ := exists_mem_of_any_creates hcreates
  have hforgets : s'.Forgets "lobby123" := by
    refine hall twoUsers s log rfl rfl rfl rfl rfl (hserved.mono fun _ _ _ _ => trivial) "lobby123" _ _ _ _ _
      (hrun.amid (AppState.BringsNothing.refl _)) (mem_of_any_empties hempties) ?_
    rw [htasks]
    exact fun task hmem => absurd hmem List.not_mem_nil
  have hsame : s'.answers useLobby = (s'.forget "lobby123").answers useLobby :=
    hforgets "anna" (createRequest "lobby123") (fun _ => .calm) callLobby record hcreated
  exact of_decide_eq_false hdiffer (congrArg confirmedCalls hsame)

end Lobby

end Lqxp
