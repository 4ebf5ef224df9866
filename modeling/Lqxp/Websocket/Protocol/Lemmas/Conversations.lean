import Lqxp.Websocket.Protocol.Lemmas.Conduct

/-!
This module contains the conduct of the handlers for messages, sessions and rooms.
-/

namespace Lqxp

-- unfolding it would run the handlers
attribute [local irreducible] Prog.Abides

namespace Conducts

variable {sid : String} {h : List AppState}

section Messages

theorem get?_object_eq_none {fields : List (Option (String × Json))} {key : String}
    (hfields : ∀ field ∈ fields, ∀ x, field = some x → x.1 ≠ key) : (object fields).get? key = none := by
  simp only [object, Json.get?]
  refine List.lookup_eq_none_iff.2 fun x hx => ?_
  obtain ⟨field, hfield, hsome⟩ := List.mem_filterMap.1 hx
  simpa using (hfields field hfield x hsome).symm

theorem fst_of_field {key : String} {value : Json} {x : String × Json} (h : field key value = some x) : x.1 = key :=
  congrArg Prod.fst (Option.some.inj h).symm

theorem fst_of_skipEmpty {key value : String} {x : String × Json} (h : skipEmpty key value = some x) : x.1 = key := by
  unfold skipEmpty at h
  split at h
  . contradiction
  . exact congrArg Prod.fst (Option.some.inj h).symm

theorem fst_of_skipNone {key : String} {value : Option Json} {x : String × Json} (h : skipNone key value = some x)
    : x.1 = key := by
  obtain ⟨_, -, rfl⟩ := Option.map_eq_some_iff.1 h
  rfl

theorem fst_of_flag {key : String} {value : Json} {c : Prop} [Decidable c] {x : String × Json}
    (h : (if c then field key value else none) = some x) : x.1 = key := by
  split at h
  . exact fst_of_field h
  . contradiction

theorem get?_gameId_message (stored : ChatMessageRecord) : stored.toJson.get? "gameId" = none := by
  refine get?_object_eq_none fun o ho x hx => ?_
  have hkey : x.1 ∈ ["messageId", "roomId", "user", "username", "userId", "text", "timestamp", "profile", "editedAt",
      "system", "reactions", "replyToMessageId", "attachment", "encrypted", "preview", "deleted", "deletedBy",
      "deletedByModerator"] := by
    simp only [List.mem_cons, List.not_mem_nil, or_false] at ho
    rcases ho with rfl | rfl | rfl | rfl | rfl | rfl | rfl | rfl | rfl | rfl | rfl | rfl | rfl | rfl | rfl | rfl
      | rfl | rfl
    all_goals
      first
      | rw [fst_of_field hx]
      | rw [fst_of_skipEmpty hx]
      | rw [fst_of_skipNone hx]
      | rw [fst_of_flag hx]
      decide
  intro hgameId
  rw [hgameId] at hkey
  exact absurd hkey (by decide)

theorem payloadRoom_chatMessage (op : Nat) (stored : ChatMessageRecord)
    : payloadRoom (.obj [("op", .int op), ("d", stored.toJson)]) = some stored.roomId := by
  have hd : (Json.obj [("op", .int op), ("d", stored.toJson)]).get? "d" = some stored.toJson := rfl
  have hroom : stored.toJson.getStr? "roomId" = some stored.roomId := rfl
  rw [payloadRoom, hd, Option.bind_some, Option.bind_some, hroom, Json.getStr?, get?_gameId_message]
  rfl

theorem parseAttachment (raw : Option Json) : Any sid (parseAttachment raw) h := by
  unfold Lqxp.parseAttachment
  split
  . split
    . exact .pure trivial
    refine (storeUploadedBytes _ _ _).followed fun stored h => ?_
    split
    . exact .pure trivial
    . exact .pure trivial
  . exact .pure trivial

theorem spawnPreview (task : PreviewTask) : Any sid (spawnPreview task) h := (quiet fun _ _ => ⟨rfl, rfl, rfl⟩).any

theorem isSilenced (roomId userId : String) : Any sid (isSilenced roomId userId) h := by
  refine (roomRecord _).followed fun room h => ?_
  split
  . exact nowMs.followed fun _ _ => .pure trivial
  . exact .pure trivial

theorem admitSender (roomId : String) (now : Nat) : Any sid (admitSender sid roomId now) h := by
  refine gently fun e s _ => ?_
  split
  . exact ⟨rfl, .refl s, trivial⟩
  simp only
  split
  . exact ⟨rfl, .refl s, trivial⟩
  split
  . exact ⟨rfl, .refl s, trivial⟩
  split
  . exact ⟨rfl, .refl s, trivial⟩
  . refine ⟨rfl, .modify ?_ rfl rfl, trivial⟩
    exact fun _ => ⟨rfl, rfl⟩

theorem storeRoomMessage {roomId : String} {message : ChatMessageRecord} (hroom : message.roomId = roomId)
    : Conducts sid (fun stored _ => stored.roomId = roomId) (storeRoomMessage roomId message) h := by
  refine gently fun e s _ => ⟨rfl, .change fun stored hstored => ?_, hroom⟩
  obtain rfl := MessageChange.stored.inj hstored
  exact hroom

theorem announceMessage {roomId : String} {stored : ChatMessageRecord} (draft : Draft) (reqId : Option String)
    (hroom : stored.roomId = roomId) : Any sid (announceMessage sid roomId draft stored reqId) h := by
  have hpayload := (payloadRoom_chatMessage 7 stored).trans (congrArg some hroom)
  refine (broadcastToRoom hpayload rfl).followed fun _ h => (respondOk _ _ (by decide)).followed fun _ h => ?_
  split
  . exact (spawnPreview _).followed fun _ _ => .pure trivial
  . exact .pure trivial

theorem deliverMessage (roomId : String) (draft : Draft) (reqId : Option String)
    : Any sid (deliverMessage sid roomId draft reqId) h := by
  refine (hitRateLimit _ _ _).followed fun limited h => ?_
  split
  . exact respondError _ _ _
  refine nowMs.followed fun now h => (admitSender _ _).followed fun answer h => ?_
  split
  . exact respondError _ _ _
  refine (look _).followed fun profile h => (isSilenced _ _).followed fun silenced h => ?_
  split
  . exact respondError _ _ _
  . exact (storeRoomMessage rfl).bind fun stored h' _ hroom => announceMessage _ _ hroom

theorem sendChatMessage (d : Json) : Any sid (sendChatMessage sid d) h := by
  unfold Lqxp.sendChatMessage
  simp only
  split
  . exact respondError _ _ _
  refine (parseAttachment _).followed fun attachment h => ?_
  split
  . exact respondError _ _ _
  split
  . exact respondError _ _ _
  . exact deliverMessage _ _ _

theorem locateMessage (messageId : String) (roomHint : Option String) : Any sid (locateMessage messageId roomHint) h := by
  refine (quiet fun e s => ?_).any
  dsimp only
  split
  . exact ⟨rfl, rfl, rfl⟩
  . exact ⟨rfl, rfl, rfl⟩

theorem updateMessageReactions (messageId emoji username : String) (roomHint : Option String)
    : Any sid (updateMessageReactions messageId emoji username roomHint) h := by
  refine gently fun e s _ => ?_
  simp only
  split
  . exact ⟨rfl, .refl s, trivial⟩
  . refine ⟨rfl, .change ?_, trivial⟩
    exact fun _ hstored => by contradiction

theorem applyReaction (messageId emoji : String) (roomHint reqId : Option String)
    : Any sid (applyReaction sid messageId emoji roomHint reqId) h := by
  refine identifiedPlayer.followed fun player h => ?_
  split
  . refine (locateMessage _ _).followed fun room h => ?_
    split
    . split
      . exact respondError _ _ _
      refine (isSilenced _ _).followed fun silenced h => ?_
      split
      . exact respondError _ _ _
      refine (updateMessageReactions _ _ _ _).followed fun found h => ?_
      split
      . refine (broadcastToRoom ?_ rfl).followed fun _ h => respondOk _ _ (by decide)
        rfl
      . exact respondError _ _ _
    . exact respondError _ _ _
  . exact respondError _ _ _

theorem toggleMessageReaction (d : Json) : Any sid (toggleMessageReaction sid d) h := by
  refine (hitRateLimit _ _ _).followed fun limited h => ?_
  split
  . exact respondError _ _ _
  split
  . split
    . split
      . exact applyReaction _ _ _ _
      . exact respondError _ _ _
    . exact respondError _ _ _
  . exact respondError _ _ _

theorem deleteFoundMessage (messageId : String) (roomHint : Option String) (player : PlayerSession)
    : Any sid (deleteFoundMessage messageId roomHint player) h := by
  refine gently fun e s _ => ?_
  split
  . exact ⟨rfl, .refl s, trivial⟩
  split
  . exact ⟨rfl, .refl s, trivial⟩
  split
  . exact ⟨rfl, .refl s, trivial⟩
  . refine ⟨rfl, .change ?_, trivial⟩
    exact fun _ hstored => by contradiction

theorem deleteMessage (d : Json) : Any sid (deleteMessage sid d) h := by
  refine (hitRateLimit _ _ _).followed fun limited h => ?_
  split
  . exact respondError _ _ _
  split
  . refine identifiedPlayer.followed fun player h => ?_
    split
    . refine nowMs.followed fun timestamp h => (deleteFoundMessage _ _ _).followed fun answer h => ?_
      split
      . exact respondError _ _ _
      split
      . exact (broadcastToRoom rfl rfl).followed fun _ h => respondOk _ _ (by decide)
      . exact respondOk _ _ (by decide)
    . exact respondError _ _ _
  . exact respondError _ _ _

theorem editFoundMessage (messageId roomId text : String) (player : PlayerSession)
    (encrypted : Option EncryptedPayload) (editedAt : Nat)
    : Conducts sid (fun answer _ => ∀ edited, answer = .ok edited → edited.roomId = roomId)
        (editFoundMessage messageId roomId text player encrypted editedAt) h := by
  refine gently fun e s hs => ?_
  split
  . exact ⟨rfl, .refl s, fun _ hok => by contradiction⟩
  next message hfound =>
    split
    . exact ⟨rfl, .refl s, fun _ hok => by contradiction⟩
    split
    . exact ⟨rfl, .refl s, fun _ hok => by contradiction⟩
    split
    . exact ⟨rfl, .refl s, fun _ hok => by contradiction⟩
    have hgentle : Gentle s (s.change roomId (.edited messageId text player.profile encrypted editedAt)) :=
      .change fun _ hstored => by contradiction
    refine ⟨rfl, hgentle, fun edited hok => ?_⟩
    obtain rfl := Except.ok.inj hok
    have htidy := hgentle.tidy hs
    generalize s.change roomId (.edited messageId text player.profile encrypted editedAt) = s' at htidy
    cases hedited : findMessage messageId (s'.messages roomId) with
    | none => exact hs.messages (findMessage_eq_some hfound).1
    | some edited => exact htidy.messages (findMessage_eq_some hedited).1

theorem applyEdit (messageId roomId text : String) (encrypted : Option EncryptedPayload) (reqId : Option String)
    : Any sid (applyEdit sid messageId roomId text encrypted reqId) h := by
  refine identifiedPlayer.followed fun player h => ?_
  split
  . split
    . exact respondError _ _ _
    refine nowMs.followed fun editedAt h => ?_
    refine (editFoundMessage _ _ _ _ _ _).bind fun answer h _ hanswer => ?_
    split
    . exact respondError _ _ _
    next edited =>
      have hpayload := (payloadRoom_chatMessage 30 edited).trans (congrArg some (hanswer edited rfl))
      refine (broadcastToRoom hpayload rfl).followed fun _ h => (respondOk _ _ (by decide)).followed fun _ h => ?_
      split
      . exact (spawnPreview _).followed fun _ _ => .pure trivial
      . exact .pure trivial
  . exact respondError _ _ _

theorem editMessage (d : Json) : Any sid (editMessage sid d) h := by
  refine (hitRateLimit _ _ _).followed fun limited h => ?_
  split
  . exact respondError _ _ _
  split
  . split
    . exact respondError _ _ _
    simp only
    split
    . exact respondError _ _ _
    split
    . exact respondError _ _ _
    . exact applyEdit _ _ _ _ _
  . exact respondError _ _ _

theorem findPreviewTarget (roomId messageId url : String) (reqId : Option String)
    : Any sid (findPreviewTarget sid roomId messageId url reqId) h := by
  refine identifiedPlayer.followed fun player h => ?_
  split
  . split
    . exact respondError _ _ _
    refine (hitRateLimit _ _ _).followed fun limited h => ?_
    split
    . exact respondError _ _ _
    refine (look _).followed fun message h => ?_
    split
    . split
      . exact respondError _ _ _
      split
      . exact respondError _ _ _
      split
      . exact respondOk _ _ (by decide)
      refine (respondOk _ _ (by decide)).followed fun _ h => ?_
      exact (spawnPreview _).followed fun _ _ => .pure trivial
    . exact respondError _ _ _
  . exact respondError _ _ _

theorem requestLinkPreview (d : Json) : Any sid (requestLinkPreview sid d) h := by
  unfold Lqxp.requestLinkPreview
  simp only
  split
  . split
    . exact respondError _ _ _
    split
    . split
      . split
        . exact findPreviewTarget _ _ _ _
        . exact respondError _ _ _
      . exact respondError _ _ _
    . exact respondError _ _ _
  . exact respondError _ _ _

end Messages

section Sessions

theorem broadcastSyncPeerEvent {userId : String} (event clientId platform : String) (exclude : Option String)
    (huser : Known h (·.Belongs sid userId))
    : Any sid (broadcastSyncPeerEvent userId event clientId platform exclude) h := by
  unfold Lqxp.broadcastSyncPeerEvent
  split
  . exact .pure trivial
  next hblank =>
    refine telling (f := fun _ s => ((), (s.players.values.filter fun player =>
      player.userId = userId && some player.id ≠ exclude).map (·.id), message 63
        [("event", .str event), ("clientId", .str clientId), ("platform", .str platform)])) fun e s hs k hk => ?_
    obtain ⟨player, hplayer, rfl⟩ := List.mem_map.1 hk
    obtain ⟨hvalue, hmatch⟩ := List.mem_filter.1 hplayer
    refine .of_no_room rfl rfl fun _ => .inl ⟨userId, ?_, ?_, ?_⟩
    . rintro rfl
      exact hblank rfl
    . exact huser.mono (List.prefix_append _ _)
    . exact .here ⟨player, hs.id_of_mem hvalue, by simpa using (Bool.and_eq_true_iff.1 hmatch).1⟩

theorem authenticateToken (token : String) : Any sid (authenticateToken token) h := by
  have huser (userId : String) (h : List AppState) : Any sid (userById userId) h := by
    refine (quiet fun e s => ?_).any
    split
    . exact ⟨rfl, rfl, rfl⟩
    split
    . simp only
      split
      . exact ⟨rfl, trivial, trivial⟩
      . exact ⟨rfl, trivial, trivial⟩
    . exact ⟨rfl, rfl, rfl⟩
  have hsession : Any sid (sessionUserId token) h := by
    refine (quiet fun e s => ?_).any
    split
    . exact ⟨rfl, rfl, rfl⟩
    simp only
    split
    . split
      . exact ⟨rfl, rfl, rfl⟩
      . exact ⟨rfl, rfl, rfl⟩
    . exact ⟨rfl, rfl, rfl⟩
  refine hsession.followed fun found h => ?_
  split
  . exact .pure trivial
  . exact .pure trivial
  . refine (huser _ _).followed fun found h => ?_
    split
    . exact .pure trivial
    . exact .pure trivial
    . split
      . exact .pure trivial
      . exact .pure trivial

theorem updateStatus (userId : String) (status : UserPresenceStatus) : Any sid (updateStatus userId status) h := by
  refine (quiet fun e s => ?_).any
  split
  . exact ⟨rfl, rfl, rfl⟩
  . exact ⟨rfl, rfl, rfl⟩

theorem bindSession (account : AuthenticatedUser) (status : UserPresenceStatus) (d : Json)
    : Conducts sid (fun answer h' => ∀ prevClientId player, answer = some (prevClientId, player) →
        Known h' (·.Belongs sid player.userId)) (bindSession sid account status d) h := by
  refine Prog.Abides.atom fun e s hs => ?_
  split
  . exact ⟨.of_gentle rfl (.refl s), hs, fun _ _ hnone => by contradiction⟩
  next player hplayer =>
    let identify := PlayerSession.identifyAs account status d e.now
    refine ⟨⟨fun m hm => absurd hm List.not_mem_nil, fun k player' hk => ?_⟩, ?_, fun prevClientId player' hsome => ?_⟩
    . rw [AssocMap.lookup_modify] at hk
      split at hk
      next hself =>
        obtain ⟨old, hold, -⟩ := Option.map_eq_some_iff.1 hk
        exact ⟨old, hold, .inl ⟨account.id, by rw [hself]⟩⟩
      . exact ⟨player', hk, .inr rfl⟩
    . exact ⟨hs.ids.modify fun player _ hid => hid, hs.rooms⟩
    . obtain ⟨-, rfl⟩ := Prod.mk.inj (Option.some.inj hsome)
      refine .after ⟨identify player, ?_, rfl⟩
      rw [AssocMap.lookup_modify_self, hplayer]
      rfl

theorem completeIdentify (d : Json) (account : AuthenticatedUser) (status : UserPresenceStatus)
    (reqId : Option String) : Any sid (completeIdentify sid d account status reqId) h := by
  refine (bindSession account status d).bind fun answer h₁ _ hanswer => ?_
  split
  next prevClientId player =>
    have huser := hanswer prevClientId player rfl
    refine (look _).any.bind fun defaultRoom h₂ hbegins₂ _ => (respond _ _ (by decide)).bind fun _ h₃ hbegins₃ _ => ?_
    split
    . exact (broadcastSyncPeerEvent _ _ _ _ ((huser.mono hbegins₂).mono hbegins₃)).followed fun _ _ => .pure trivial
    . exact .pure trivial
  . exact .pure trivial

theorem identifyPlayer (d : Json) : Any sid (identifyPlayer sid d) h := by
  unfold Lqxp.identifyPlayer
  simp only
  split
  . refine (authenticateToken _).followed fun found h => ?_
    split
    . exact respondError _ _ _
    . exact respondError _ _ _
    . split
      . exact (updateStatus _ _).followed fun _ h => completeIdentify _ _ _ _
      . exact completeIdentify _ _ _ _
  . exact respondError _ _ _

theorem sendRoomHistory (d : Json) : Any sid (sendRoomHistory sid d) h := by
  refine (hitRateLimit _ _ _).followed fun limited h => ?_
  split
  . exact respondError _ _ _
  refine (resolveRoomForSession _).bind fun answer h' _ hanswer => ?_
  split
  . exact respondError _ _ _
  next roomId => exact (dispatchRoomHistory _ (hanswer roomId rfl)).followed fun _ _ => .pure trivial

theorem enterRoom (roomId : String)
    : Conducts sid (fun answer h' => ∀ x, answer = .ok x → Known h' (·.Holds sid roomId)) (enterRoom sid roomId) h := by
  have henter (player : PlayerSession)
      : (player.enter roomId).id = player.id ∧ (player.enter roomId).credentials = player.credentials := by
    unfold PlayerSession.enter
    split
    . exact ⟨rfl, rfl⟩
    . exact ⟨rfl, rfl⟩
  refine gently fun e s _ => ?_
  split
  . exact ⟨rfl, .refl s, fun _ hok => by contradiction⟩
  next player hplayer =>
    split
    . exact ⟨rfl, .refl s, fun _ hok => by contradiction⟩
    split
    . exact ⟨rfl, .refl s, fun _ hok => by contradiction⟩
    split
    next hroom => exact ⟨rfl, .refl s, fun _ _ => .before ⟨player, hplayer, by simpa using hroom⟩⟩
    next hroom =>
      refine ⟨rfl, .modify henter rfl rfl, fun _ _ => .after ⟨player.enter roomId, ?_, ?_⟩⟩
      . rw [AssocMap.lookup_modify_self, hplayer, Option.map_some]
      . rw [PlayerSession.enter, if_neg hroom]
        exact List.mem_append_right _ (List.mem_singleton_self _)

theorem exitRoom (roomId : String) : Any sid (exitRoom sid roomId) h := by
  refine gently fun e s _ => ⟨rfl, .modify ?_ rfl rfl, trivial⟩
  exact fun _ => ⟨rfl, rfl⟩

theorem completeJoin {roomId : String} (username userId : String) (alreadyIn silentJoin : Bool)
    (reqId : Option String) (hroom : Known h (·.Holds sid roomId))
    : Any sid (completeJoin sid roomId username userId alreadyIn silentJoin reqId) h := by
  refine (look _).any.bind fun status h₁ hbegins₁ _ => (recordOrRoster _ _).bind fun room h₂ hbegins₂ _ => ?_
  refine (look _).any.bind fun broadcastRosters h₃ hbegins₃ _ => (look _).any.bind fun rosters h₄ hbegins₄ _ => ?_
  have hroom₄ := (((hroom.mono hbegins₁).mono hbegins₂).mono hbegins₃).mono hbegins₄
  have hlast {h : List AppState} (d : List (String × Json)) (hroom : Known h (·.Holds sid roomId))
      : Any sid (do
          let _ ← Lqxp.respondOk sid 3 d reqId
          Lqxp.dispatchRoomHistory sid roomId none
          return false) h := by
    refine (respondOk _ _ (by decide)).bind fun _ h' hbegins _ => ?_
    exact (dispatchRoomHistory _ (hroom.mono hbegins)).followed fun _ _ => .pure trivial
  split
  . refine (broadcastToRoom rfl rfl).bind fun _ h' hbegins _ => hlast _ (hroom₄.mono hbegins)
  . exact hlast _ hroom₄

theorem joinGame (d : Json) : Any sid (joinGame sid d) h := by
  refine (hitRateLimit _ _ _).followed fun limited h => ?_
  split
  . exact respondError _ _ _
  split
  . simp only
    split
    . exact respondError _ _ _
    refine (enterRoom _).bind fun answer h₁ _ hanswer => ?_
    split
    . exact respondError _ _ _
    next alreadyIn username userId =>
      have hroom := hanswer _ rfl
      split
      . exact completeJoin _ _ _ _ _ hroom
      refine (roomRecord _).bind fun room h₂ hbegins₂ _ => ?_
      split
      . exact (exitRoom _).followed fun _ h => (respond _ _ (by decide)).followed fun _ _ => .pure trivial
      . refine (syncRoomRecord _).bind fun _ h₃ hbegins₃ _ => ?_
        exact completeJoin _ _ _ _ _ ((hroom.mono hbegins₂).mono hbegins₃)
  . exact respondError _ _ _

theorem quitRoom (roomId : String) : Any sid (quitRoom sid roomId) h := by
  refine gently fun e s _ => ?_
  split
  . exact ⟨rfl, .refl s, trivial⟩
  split
  . refine ⟨rfl, .modify ?_ rfl rfl, trivial⟩
    exact fun _ => ⟨rfl, rfl⟩
  . exact ⟨rfl, .refl s, trivial⟩

theorem deleteUserMessages (gameId deletedBy : String)
    : Any sid (deleteUserMessagesInRoomAndBroadcast gameId deletedBy) h := by
  refine nowMs.followed fun deletedAt h => ?_
  refine followed (Q := fun _ _ => True) (gently fun e s _ => ?_) fun ids h => ?_
  . split
    . exact ⟨rfl, .refl s, trivial⟩
    . refine ⟨rfl, .change ?_, trivial⟩
      exact fun _ hstored => by contradiction
  . unfold announceCleared
    split
    . exact .pure trivial
    . exact (broadcastToRoom rfl rfl).followed fun _ _ => .pure trivial

theorem clearOnLeave (roomId username : String) (clears : Bool) : Any sid (clearOnLeave roomId username clears) h := by
  unfold Lqxp.clearOnLeave
  split
  . exact deleteUserMessages _ _
  . exact .pure trivial

theorem leaveGame (d : Json) : Any sid (leaveGame sid d) h := by
  refine (hitRateLimit _ _ _).followed fun limited h => ?_
  split
  . exact respondError _ _ _
  split
  . split
    . exact respondError _ _ _
    refine (quitRoom _).followed fun answer h => ?_
    split
    . exact respondError _ _ _
    refine (syncRoomRecord _).followed fun _ h => (look _).followed fun rosters h => ?_
    refine (recordOrRoster _ _).followed fun room h => (broadcastToRoom rfl rfl).followed fun _ h => ?_
    exact (clearOnLeave _ _ _).followed fun ids h => respondOk _ _ (by decide)
  . exact respondError _ _ _

theorem removePlayer : Conducts sid (fun removed h' => ∀ player, removed = some player →
      Known h' (·.Belongs sid player.userId)) (removePlayer sid) h := by
  refine gently fun e s _ => ?_
  split
  next player hplayer =>
    refine ⟨rfl, .erase rfl rfl, fun player' heq => ?_⟩
    obtain rfl := Option.some.inj heq
    exact .before ⟨player, hplayer, rfl⟩
  next => exact ⟨rfl, .refl s, fun player hnone => by contradiction⟩

theorem leaveBehind (player : PlayerSession) (gameId : String) : Any sid (leaveBehind player gameId) h := by
  refine (syncRoomRecord _).followed fun _ h => followed (Q := fun _ _ => True) ?_ fun _ h => ?_
  . unfold announceLeft
    split
    . exact .pure trivial
    . exact (roomRecord _).followed fun _ _ => broadcastToRoom rfl rfl
  refine (clearOnLeave _ _ _).followed fun _ h => ?_
  unfold announceHungUp
  split
  . exact .pure trivial
  . exact broadcastToRoom rfl rfl

theorem leaveBehindAll (player : PlayerSession) (rooms : List String) : Any sid (leaveBehindAll player rooms) h := by
  induction rooms generalizing h with
  | nil => exact .pure trivial
  | cons gameId rooms ih => exact (leaveBehind player gameId).followed fun _ _ => ih

theorem disconnectPlayer : Any sid (disconnectPlayer sid) h := by
  refine removePlayer.bind fun removed h _ hremoved => ?_
  split
  next player =>
    split
    . exact (broadcastSyncPeerEvent _ _ _ _ (hremoved player rfl)).followed fun _ _ => leaveBehindAll _ _
    . exact leaveBehindAll _ _
  next => exact .pure trivial

end Sessions

section Rooms

theorem broadcastRoomRecordToMembers (roomId : String) {op : Nat} (reqId : Option String) (room : RoomRecord)
    (hop : op ≠ 18) : Any sid (broadcastRoomRecordToMembers roomId op reqId room) h :=
  announce reqId rfl hop

theorem announceRoom {op : Nat} (roomId : String) (room : RoomRecord) (reqId : Option String)
    (hop : op ≠ 18) : Any sid (announceRoom sid op roomId room reqId) h :=
  (broadcastRoomRecordToMembers _ _ _ hop).followed fun _ _ => respondOk _ _ hop

theorem saveRoom {op : Nat} (failure roomId : String) (room : RoomRecord) (reqId : Option String)
    (hop : op ≠ 18) : Any sid (saveRoom sid op failure roomId room reqId) h := by
  refine (setRoomRecord _ _).followed fun saved h => ?_
  split
  . exact (roomRecord _).followed fun _ _ => announceRoom _ _ _ hop
  . exact respondError _ _ _

theorem changeSetting {op : Nat} {key : String} {limit windowMs : Nat} {notAllowed failure : String} {d : Json}
    {change : RoomRecord → RoomRecord} (hop : op ≠ 18)
    : Any sid (changeSetting op key limit windowMs notAllowed failure sid d change) h := by
  refine communityRequest fun actor roomId room h => ?_
  split
  . exact respondError _ _ _
  . exact saveRoom _ _ _ _ hop

theorem setModeratorPermissions (d : Json) : Any sid (setModeratorPermissions sid d) h := by
  refine communityRequest fun actor roomId room h => ?_
  split
  . exact respondError _ _ _
  split
  . exact saveRoom _ _ _ _ (by decide)
  . exact respondError _ _ _

theorem updateRoomDescription (d : Json) : Any sid (updateRoomDescription sid d) h := by
  refine communityRequest fun actor roomId room h => ?_
  split
  . exact respondError _ _ _
  refine (setRoomRecord _ _).followed fun saved h => ?_
  split
  . exact announceRoom _ _ _ (by decide)
  . exact respondError _ _ _

theorem changeRoom {op : Nat} {key : String} {limit windowMs : Nat} {limited : String} {d : Json}
    {body : String → Proto Bool} (hbody : ∀ roomId h', Any sid (body roomId) h')
    : Any sid (changeRoom op key limit windowMs limited sid d body) h := by
  refine accountOf.followed fun userId h => (hitRateLimit _ _ _).followed fun hit h => ?_
  split
  . exact respondError _ _ _
  refine (resolveRoomForSession _).followed fun answer h => ?_
  split
  . exact respondError _ _ _
  refine (roomRecord _).followed fun room h => ?_
  split
  . exact respondError _ _ _
  . exact hbody _ _

theorem updateRoomTitle (d : Json) : Any sid (updateRoomTitle sid d) h := by
  refine changeRoom fun roomId h => (syncRoomRecord _).followed fun room h => ?_
  split
  . refine (setRoomRecord _ _).followed fun saved h => ?_
    split
    . exact announceRoom _ _ _ (by decide)
    . exact respondError _ _ _
  . exact respondError _ _ _

theorem finishRoomIcon (d : Json) (roomId : String) (answer : Except String (Option RoomIcon))
    : Any sid (finishRoomIcon sid d roomId answer) h := by
  unfold Lqxp.finishRoomIcon
  split
  . exact respondError _ _ _
  . exact respondError _ _ _
  . refine (setRoomIcon _ _).followed fun saved h => ?_
    split
    . refine (syncRoomRecord _).followed fun _ h => (roomRecord _).followed fun stored h => ?_
      refine (look _).followed fun members h => ?_
      exact (broadcastRoomRecordToMembers _ _ _ (by decide)).followed fun _ _ => respondOk _ _ (by decide)
    . exact respondError _ _ _

theorem uploadRoomIcon (d : Json) : Any sid (uploadRoomIcon sid d) h :=
  changeRoom fun _ _ => (storeRoomIconFromPayload _ _).followed fun _ _ => finishRoomIcon _ _ _

theorem setMemberRole (d : Json) : Any sid (setMemberRole sid d) h := by
  refine communityRequest fun actor roomId room h => ?_
  simp only
  split
  . exact respondError _ _ _
  split
  . split
    . exact respondError _ _ _
    refine withTarget fun targetId _ h => ?_
    split
    . exact respondError _ _ _
    split
    . exact respondError _ _ _
    split
    . exact respondError _ _ _
    split
    . exact respondError _ _ _
    . exact saveRoom _ _ _ _ (by decide)
  . exact respondError _ _ _

theorem transferOwnership (d : Json) : Any sid (transferOwnership sid d) h := by
  refine communityRequest fun actor roomId room h => ?_
  simp only
  split
  . exact respondError _ _ _
  refine withTarget fun targetId _ h => ?_
  split
  . exact respondError _ _ _
  split
  . exact respondError _ _ _
  . exact saveRoom _ _ _ _ (by decide)

theorem moderate {op : Nat} {d : Json} {action : ModAction} {actorId : String} {room : RoomRecord} {notSelf : Bool}
    {notAllowed : String} {body : String → String → Proto Bool}
    (hbody : ∀ targetId targetName h', Any sid (body targetId targetName) h')
    : Any sid (moderate sid op d action actorId room notSelf notAllowed body) h := by
  refine withTarget fun targetId targetName h => ?_
  split
  . exact respondError _ _ _
  split
  . exact respondError _ _ _
  . exact hbody _ _ _

theorem notify {roomId : String} {recipients : List String} {payload : Json}
    (hpayload : payloadRoom payload = some roomId) (hhistory : isHistory payload = false) (hseen : ∀ k ∈ recipients, Known h (·.Holds k roomId))
    : Any sid (Prog.atom fun _ s => ((), .broadcast recipients payload, s)) h :=
  telling (f := fun _ _ => ((), recipients, payload)) fun _ _ _ k hk =>
    .of_room hpayload hhistory ((hseen k hk).mono (List.prefix_append _ _))

theorem removeUserFromRoom (roomId userId reason : String) : Any sid (removeUserFromRoom roomId userId reason) h := by
  refine Prog.Abides.bind (Q := fun removed h' => ∀ k ∈ removed, Known h' (·.Holds k roomId))
    (gently fun e s hs => ⟨rfl, .mapValues ?_ rfl fun _ _ hk => hk, fun k hk => ?_⟩)
    fun removed h' _ hremoved => notify rfl rfl hremoved
  . intro k player
    split
    . exact ⟨rfl, rfl⟩
    . exact ⟨rfl, rfl⟩
  . obtain ⟨player, hplayer, rfl⟩ := List.mem_map.1 hk
    obtain ⟨hvalue, hmatch⟩ := List.mem_filter.1 hplayer
    exact .before ⟨player, hs.id_of_mem hvalue, by simpa using (Bool.and_eq_true_iff.1 hmatch).2⟩

theorem evictMember {op : Nat} (roomId targetId targetName reason : String) (room : RoomRecord)
    (reqId : Option String) (hop : op ≠ 18)
    : Any sid (evictMember sid op roomId targetId targetName reason room reqId) h := by
  refine (removeUserFromRoom _ _ _).followed fun _ h => (syncRoomRecord _).followed fun _ h => ?_
  refine (roomRecord _).followed fun stored h => followed (Q := fun _ _ => True) ?_ fun _ h => respondOk _ _ hop
  exact (look _).followed fun rosters h => broadcastToRoom rfl rfl

theorem banMember (d : Json) : Any sid (banMember sid d) h := by
  refine communityRequest fun actor roomId room h => moderate fun targetId targetName h => ?_
  refine (setRoomRecord _ _).followed fun saved h => ?_
  split
  . exact evictMember _ _ _ _ _ _ (by decide)
  . exact respondError _ _ _

theorem kickMember (d : Json) : Any sid (kickMember sid d) h :=
  communityRequest fun _ _ _ _ => moderate fun _ _ _ => evictMember _ _ _ _ _ _ (by decide)

theorem unbanMember (d : Json) : Any sid (unbanMember sid d) h := by
  refine communityRequest fun actor roomId room h => ?_
  split
  . exact respondError _ _ _
  . exact withTarget fun _ _ _ => saveRoom _ _ _ _ (by decide)

theorem timeoutMember (d : Json) : Any sid (timeoutMember sid d) h :=
  communityRequest fun _ _ _ _ => moderate fun _ _ _ => nowMs.followed fun _ _ => saveRoom _ _ _ _ (by decide)

theorem unmuteMember (d : Json) : Any sid (unmuteMember sid d) h :=
  communityRequest fun _ _ _ _ => moderate fun _ _ _ => saveRoom _ _ _ _ (by decide)

theorem attachRoomIcon (d : Json) (roomId : String) (room : RoomRecord) : Any sid (attachRoomIcon d roomId room) h := by
  refine (storeRoomIconFromPayload _ _).followed fun answer h => ?_
  unfold finishNewRoomIcon
  split
  . exact (setRoomRecord _ _).followed fun _ _ => .pure trivial
  . exact .pure trivial

theorem createRoom (d : Json) : Any sid (createRoom sid d) h := by
  refine (hitRateLimit _ _ _).followed fun hit h => ?_
  split
  . exact respondError _ _ _
  refine sessionIdentity.followed fun actor h => ?_
  split
  . simp only
    split
    . split
      . exact respondError _ _ _
      split
      . exact respondError _ _ _
      split
      . exact respondError _ _ _
      refine (roomRecord _).followed fun existing h => ?_
      split
      . exact respondError _ _ _
      refine followed (Q := fun _ _ => True) (quiet fun e s => ?_).any fun created h => ?_
      . split
        . exact ⟨rfl, rfl, rfl⟩
        split
        . exact ⟨rfl, rfl, rfl⟩
        . exact ⟨rfl, rfl, rfl⟩
      split
      . exact respondError _ _ _
      . exact respondError _ _ _
      . refine (attachRoomIcon _ _ _).followed fun room h => ?_
        exact (roomRecord _).followed fun _ _ => respondOk _ _ (by decide)
    . exact respondError _ _ _
  . exact respondError _ _ _

theorem emptyRoom (roomId : String)
    : Conducts sid (fun members h' => ∀ k ∈ members, Known h' (·.Holds k roomId)) (emptyRoom roomId) h := by
  refine gently fun e s hs => ⟨rfl, .mapValues ?_ rfl fun k messages hk => ?_, fun k hk => ?_⟩
  . exact fun _ _ => ⟨rfl, rfl⟩
  . rw [AssocMap.lookup_erase] at hk
    split at hk
    . contradiction
    . exact hk
  . obtain ⟨player, hplayer, rfl⟩ := List.mem_map.1 hk
    obtain ⟨hvalue, hroom⟩ := List.mem_filter.1 hplayer
    exact .before ⟨player, hs.id_of_mem hvalue, by simpa using hroom⟩

theorem deleteRoomOp (d : Json) : Any sid (deleteRoomOp sid d) h := by
  refine communityRequest fun actor roomId room h => (look _).followed fun isServerAdmin h => ?_
  split
  . exact respondError _ _ _
  refine (removeIconFile _).followed fun _ h => ?_
  refine followed (Q := fun _ _ => True) (quiet fun e s => ?_).any fun deleted h => ?_
  . split
    . exact ⟨rfl, rfl, rfl⟩
    . exact ⟨rfl, rfl, rfl⟩
  split
  . refine (emptyRoom _).bind fun members h' _ hmembers => ?_
    exact (notify rfl rfl hmembers).followed fun _ _ => respondOk _ _ (by decide)
  . exact respondError _ _ _

end Rooms

end Conducts

end Lqxp
