import Lqxp.Websocket.Protocol.Lemmas.Steps

/-!
This module contains the proofs that the handlers of messages only make the steps that `Transition`
allows.
-/

namespace Lqxp

theorem hasMessage_of_mem_roomsWithMessage {s : AppState} {messageId roomId : String}
    (h : roomId ∈ s.roomsWithMessage messageId) : hasMessage messageId (s.messages roomId) := by
  obtain ⟨entry, hentry, rfl⟩ := List.mem_map.1 h
  obtain ⟨hmem, hhas⟩ := List.mem_filter.1 hentry
  have hlookup : s.roomMessages.lookup entry.1 = some entry.2 := AList.mem_lookup_iff.2 hmem
  simpa [AppState.messages, hlookup] using hhas

theorem mem_of_pickFrom {e : Env} {l : List α} {a : α} (h : pickFrom e l = some a) : a ∈ l :=
  List.mem_of_getElem? h

theorem hasMessage_of_hint {e : Env} {s : AppState} {messageId roomId : String}
    {hint : Option String}
    (h : (hint.filter fun room => hasMessage messageId (s.messages room)).or
      (pickFrom e (s.roomsWithMessage messageId)) = some roomId)
    : hasMessage messageId (s.messages roomId) := by
  rcases Option.or_eq_some_iff.1 h with hfilter | ⟨_, hpick⟩
  . exact (Option.filter_eq_some_iff.1 hfilter).2
  . exact hasMessage_of_mem_roomsWithMessage (mem_of_pickFrom hpick)

namespace Sound

variable {g : Memory} {post : α → Memory → Prop}

section Previews

theorem spawnPreview {task : PreviewTask} {post : Unit → Memory → Prop} (h : post () g)
    : Sound post (spawnPreview task) g :=
  fun _ _ => ⟨⟨rfl, rfl, fun _ => rfl, rfl, fun _ => rfl⟩, h⟩

theorem takePreview {n : Nat} {post : Option PreviewTask → Memory → Prop} (h : ∀ task, post task g)
    : Sound post (takePreview n) g :=
  fun _ _ => ⟨⟨rfl, rfl, fun _ => rfl, rfl, fun _ => rfl⟩, h _⟩

theorem not_deleted_of_admits {cause : PreviewCause} {message : ChatMessageRecord}
    (h : cause.admits message) : message.deleted = false := by
  cases cause <;> simp_all [PreviewCause.admits]

theorem patchPreview {n : Nat} {task : PreviewTask} {preview : LinkPreview}
    {post : Bool → Memory → Prop} (hreq : g.req = .preview n) (h : ∀ announce, post announce g)
    : Sound post (patchPreview task preview) g := by
  refine Prog.Spec.atom_iff.2 fun e s => ?_
  split
  . exact ⟨Keeps.refl s, h _⟩
  next message hmessage =>
    split
    next hadmits =>
      exact ⟨⟨rfl, ⟨n, hreq⟩, message, hmessage, not_deleted_of_admits hadmits⟩, h _⟩
    next => exact ⟨Keeps.refl s, h _⟩

theorem runPreviewTask (n : Nat)
    : Sound (fun _ => Memory.Settled) (runPreviewTask n) { req := .preview n } := by
  refine .bind <| .takePreview fun task => ?_
  split
  next task =>
    refine .bind <| .look fun preview => ?_
    split
    next preview =>
      refine .bind <| .patchPreview rfl fun announce => ?_
      split
      . exact .bind <| .broadcastToRoom <| .pure ⟨rfl, rfl⟩
      . exact .pure ⟨rfl, rfl⟩
    next => exact .pure ⟨rfl, rfl⟩
  next => exact .pure ⟨rfl, rfl⟩

end Previews

theorem deleteUserMessagesInRoomAndBroadcast {gameId deletedBy : String}
    {post : List String → Memory → Prop}
    (hreq : g.req.clears) (h : ∀ ids now, post ids { g with now })
    : Sound post (deleteUserMessagesInRoomAndBroadcast gameId deletedBy) g := by
  refine .bind <| .nowMs fun deletedAt => .bind <| Prog.Spec.atom_iff.2 fun e s => ?_
  have hrest (ids : List String)
      : Sound post (announceCleared gameId deletedBy deletedAt ids)
        { g with now := some deletedAt } := by
    unfold announceCleared
    split
    . exact .pure (h _ _)
    . exact .bind <| .broadcastToRoom <| .pure (h _ _)
  split
  . exact ⟨Keeps.refl s, hrest _⟩
  . exact ⟨⟨rfl, hreq⟩, hrest _⟩

section Sending

theorem parseAttachment {raw : Option Json} {post : Except String (Option Attachment) → Memory → Prop}
    (h : ∀ result, post result g) : Sound post (parseAttachment raw) g := by
  unfold Lqxp.parseAttachment
  split
  . split
    . exact .pure (h _)
    . refine .bind <| .storeUploadedBytes fun stored => ?_
      split
      . exact .pure (h _)
      . exact .pure (h _)
  . exact .pure (h _)

theorem admitSender {sid roomId : String} {now : Nat}
    {post : Except String (String × String) → Memory → Prop} (hsid : g.req.sid? = some sid)
    (herror : ∀ text, post (.error text) g)
    (h : ∀ username userId, username ≠ "" →
      post (.ok (username, userId)) { g with actor := some (userId, username) })
    : Sound post (admitSender sid roomId now) g := by
  refine Prog.Spec.atom_iff.2 fun e s => ?_
  split
  . exact ⟨Keeps.refl s, herror _⟩
  next player hplayer =>
    dsimp only
    split
    . exact ⟨Keeps.refl s, herror _⟩
    split
    . exact ⟨Keeps.refl s, herror _⟩
    split
    . exact ⟨Keeps.refl s, herror _⟩
    next hname _ _ =>
      refine ⟨⟨⟨rfl, rfl, fun sid' => ?_, rfl, fun _ => rfl⟩, sid, player, hsid, hplayer, rfl, rfl⟩,
        h _ _ hname⟩
      rw [AssocMap.lookup_modify]
      split
      next heq =>
        subst heq
        simp [Option.map_map, Function.comp_def]
      next => rfl

theorem isSilenced {roomId userId : String} {post : Bool → Memory → Prop}
    (hcreated : g.created = none) (hentering : g.entering = none)
    (h : ∀ silenced base now,
      (silenced = false → { g with base, now }.MaySpeak roomId userId) →
      post silenced { g with base, now })
    : Sound post (isSilenced roomId userId) g := by
  have hread (result : Option RoomRecord)
      : g.next (.read roomId result) = { g with base := some (roomId, result) } := by
    simp [Memory.next, hcreated, hentering]
  refine .bind <| .roomRecord fun result => ?_
  rw [hread]
  cases result with
  | some room =>
    refine .bind <| .nowMs fun now => .pure <| h _ _ _ fun hfree => ?_
    refine ⟨some room, rfl, ?_⟩
    rintro _ ⟨rfl⟩ hkind
    exact ⟨now, rfl, by simpa [hkind] using hfree⟩
  | none => exact .pure <| h false _ g.now fun _ => ⟨none, rfl, by simp⟩

theorem storeRoomMessage {roomId : String} {message : ChatMessageRecord}
    {post : ChatMessageRecord → Memory → Prop} (hop : g.req.op? = some .send)
    (hactor : g.actor = some (message.userId, message.username)) (hname : message.username ≠ "")
    (hdeleted : message.deleted = false) (hspeak : g.MaySpeak roomId message.userId)
    (h : ∀ stored, post stored g)
    : Sound post (storeRoomMessage roomId message) g :=
  fun _ _ => ⟨⟨rfl, hop, hactor, hname, hdeleted, hspeak⟩, h _⟩

theorem announceMessage {sid roomId : String} {draft : Draft} {stored : ChatMessageRecord}
    {reqId : Option String} (hunbound : g.Unbound) (hsettled : g.Settled)
    : Sound (fun _ => Memory.Settled) (announceMessage sid roomId draft stored reqId) g := by
  refine .bind <| .broadcastToRoom <| .bind <| .respondOk hunbound ?_
  dsimp only
  split
  . exact .bind <| .spawnPreview <| .pure hsettled
  . exact .bind <| .pure <| .pure hsettled

theorem deliverMessage {sid roomId : String} {d : Json} {draft : Draft} {reqId : Option String}
    : Sound (fun _ => Memory.Settled) (deliverMessage sid roomId draft reqId)
        { req := .message sid .send d } := by
  refine .bind <| .hitRateLimit fun limited => ?_
  split
  . exact .respondError ⟨rfl, rfl⟩
  refine .bind <| .nowMs fun now => ?_
  refine .bind <| .admitSender rfl (fun _ => .respondError ⟨rfl, rfl⟩) fun username userId hname => ?_
  refine .bind <| .look fun profile => ?_
  refine .bind <| .isSilenced rfl rfl fun silenced base now' hspeak => ?_
  split
  . exact .respondError ⟨rfl, rfl⟩
  next hfree =>
    refine .bind <| .storeRoomMessage rfl rfl hname rfl (hspeak (by simpa using hfree))
      fun stored => ?_
    exact .announceMessage (Memory.unbound_of_op _ rfl (by decide) (by decide)) ⟨rfl, rfl⟩

theorem sendChatMessage (sid : String) (d : Json)
    : Sound (fun _ => Memory.Settled) (sendChatMessage sid d) { req := .message sid .send d } := by
  unfold Lqxp.sendChatMessage
  dsimp only
  split
  . exact .respondError ⟨rfl, rfl⟩
  . refine .bind <| .parseAttachment fun attachment => ?_
    split
    . exact .respondError ⟨rfl, rfl⟩
    . split
      . exact .respondError ⟨rfl, rfl⟩
      . exact .deliverMessage

end Sending

section Editing

theorem locateMessage {messageId : String} {roomHint : Option String}
    {post : Option String → Memory → Prop} (hnone : post none g)
    (h : ∀ room, post (some room) { g with located := some (messageId, room) })
    : Sound post (locateMessage messageId roomHint) g := by
  refine Prog.Spec.atom_iff.2 fun e s => ?_
  dsimp only
  split
  next room hroom =>
    refine ⟨⟨rfl, ?_⟩, h room⟩
    split at hroom
    . split at hroom
      next hhas =>
        obtain rfl := Option.some.inj hroom
        exact hhas
      next => simp at hroom
    . exact hasMessage_of_mem_roomsWithMessage (mem_of_pickFrom hroom)
  next => exact ⟨Keeps.refl s, hnone⟩

theorem updateMessageReactions {messageId emoji username userId checkedRoom : String}
    {roomHint : Option String} {post : Option (String × List MessageReaction) → Memory → Prop}
    (hop : g.req.op? = some .react) (hactor : g.actor = some (userId, username))
    (hlocated : g.located = some (messageId, checkedRoom)) (hspeak : g.MaySpeak checkedRoom userId)
    (h : ∀ result, post result g)
    : Sound post (updateMessageReactions messageId emoji username roomHint) g := by
  refine Prog.Spec.atom_iff.2 fun e s => ?_
  dsimp only
  split
  . exact ⟨Keeps.refl s, h _⟩
  next room hroom =>
    exact ⟨⟨rfl, userId, checkedRoom, hop, hactor, hlocated, hspeak, hasMessage_of_hint hroom⟩, h _⟩

theorem identifiedPlayer {sid : String} {post : Option PlayerSession → Memory → Prop}
    (hsid : g.req.sid? = some sid) (hnone : ∀ actor, post none { g with actor })
    (h : ∀ player, player.username ≠ "" →
      post (some player) { g with actor := some (player.userId, player.username) })
    : Sound post (identifiedPlayer sid) g := by
  refine .bind <| .getPlayer hsid (.pure (hnone g.actor)) fun player => .pure ?_
  by_cases hname : player.username = ""
  . simpa [Option.filter, hname] using hnone (some (player.userId, player.username))
  . simpa [Option.filter, hname] using h player hname

theorem applyReaction {sid messageId emoji : String} {d : Json} {roomHint reqId : Option String}
    : Sound (fun _ => Memory.Settled) (applyReaction sid messageId emoji roomHint reqId)
        { req := .message sid .react d } := by
  refine .bind <| .identifiedPlayer rfl (fun actor => .respondError ⟨rfl, rfl⟩) fun player hname => ?_
  refine .bind <| .locateMessage (.respondError ⟨rfl, rfl⟩) fun room => ?_
  dsimp only
  split
  . exact .respondError ⟨rfl, rfl⟩
  refine .bind <| .isSilenced rfl rfl fun silenced base now hspeak => ?_
  split
  . exact .respondError ⟨rfl, rfl⟩
  next hfree =>
    refine .bind <| .updateMessageReactions rfl rfl rfl (hspeak (by simpa using hfree))
      fun result => ?_
    split
    . exact .bind <| .broadcastToRoom <|
        .respondOk (Memory.unbound_of_op _ rfl (by decide) (by decide)) ⟨rfl, rfl⟩
    . exact .respondError ⟨rfl, rfl⟩

theorem toggleMessageReaction (sid : String) (d : Json)
    : Sound (fun _ => Memory.Settled) (toggleMessageReaction sid d)
        { req := .message sid .react d } := by
  refine .bind <| .hitRateLimit fun limited => ?_
  split
  . exact .respondError ⟨rfl, rfl⟩
  split
  . split
    . split
      . exact .applyReaction
      . exact .respondError ⟨rfl, rfl⟩
    . exact .respondError ⟨rfl, rfl⟩
  . exact .respondError ⟨rfl, rfl⟩

theorem findMessage_of_findForDeletion {e : Env} {s : AppState} {messageId roomId : String}
    {roomHint : Option String} {message : ChatMessageRecord}
    (h : findForDeletion e s messageId roomHint = some (roomId, message))
    : findMessage messageId (s.messages roomId) = some message := by
  unfold findForDeletion at h
  split at h
  . simp at h
  next room _ =>
    obtain ⟨found, hfound, heq⟩ := Option.map_eq_some_iff.1 h
    obtain ⟨rfl, rfl⟩ := Prod.mk.inj heq
    exact hfound

theorem deleteFoundMessage {sid messageId : String} {d : Json} {roomHint : Option String}
    {player : PlayerSession} {post : Except String DeletedMessage → Memory → Prop}
    (hreq : g.req = .message sid .delete d) (hid : trimmedStr? d "messageId" = some messageId)
    (hactor : g.actor = some (player.userId, player.username)) (hname : player.username ≠ "")
    (h : ∀ result, post result g)
    : Sound post (deleteFoundMessage messageId roomHint player) g := by
  refine Prog.Spec.atom_iff.2 fun e s => ?_
  dsimp only
  split
  . exact ⟨Keeps.refl s, h _⟩
  next roomId message hfound =>
    split
    . exact ⟨Keeps.refl s, h _⟩
    next hdeleted =>
      split
      . exact ⟨Keeps.refl s, h _⟩
      next byModerator hallowed =>
        have hmessage := findMessage_of_findForDeletion hfound
        exact ⟨⟨rfl, sid, d, player, message, hreq, hid, hactor, rfl, hname, hmessage,
          by simpa using hdeleted, hallowed⟩, h _⟩

theorem deleteMessage (sid : String) (d : Json)
    : Sound (fun _ => Memory.Settled) (deleteMessage sid d) { req := .message sid .delete d } := by
  refine .bind <| .hitRateLimit fun limited => ?_
  split
  . exact .respondError ⟨rfl, rfl⟩
  split
  next messageId hid =>
    refine .bind <| .identifiedPlayer rfl (fun actor => .respondError ⟨rfl, rfl⟩) fun player hname => ?_
    refine .bind <| .nowMs fun timestamp => ?_
    refine .bind <| .deleteFoundMessage rfl hid rfl hname fun result => ?_
    have hunbound (g : Memory) (hreq : g.req = .message sid .delete d) : g.Unbound :=
      Memory.unbound_of_op _ (by rw [hreq]; rfl) (by decide) (by decide)
    split
    . exact .respondError ⟨rfl, rfl⟩
    . split
      . exact .bind <| .broadcastToRoom <| .respondOk (hunbound _ rfl) ⟨rfl, rfl⟩
      . exact .respondOk (hunbound _ rfl) ⟨rfl, rfl⟩
  next => exact .respondError ⟨rfl, rfl⟩

theorem editFoundMessage {sid messageId roomId text : String} {d : Json} {player : PlayerSession}
    {encrypted : Option EncryptedPayload} {editedAt : Nat}
    {post : Except String ChatMessageRecord → Memory → Prop}
    (hreq : g.req = .message sid .edit d) (hid : trimmedStr? d "messageId" = some messageId)
    (hactor : g.actor = some (player.userId, player.username)) (hname : player.username ≠ "")
    (h : ∀ result, post result g)
    : Sound post (editFoundMessage messageId roomId text player encrypted editedAt) g := by
  refine Prog.Spec.atom_iff.2 fun e s => ?_
  dsimp only
  split
  . exact ⟨Keeps.refl s, h _⟩
  next message hmessage =>
    split
    . exact ⟨Keeps.refl s, h _⟩
    split
    . exact ⟨Keeps.refl s, h _⟩
    split
    . exact ⟨Keeps.refl s, h _⟩
    next hdeleted hsystem hauthor =>
      exact ⟨⟨rfl, sid, d, player.userId, player.username, message, hreq, hid, hactor, hname, hmessage,
        by simpa using hdeleted, by simpa using hsystem, by simpa using hauthor⟩, h _⟩

theorem applyEdit {sid messageId roomId text : String} {d : Json}
    {encrypted : Option EncryptedPayload} {reqId : Option String}
    (hid : trimmedStr? d "messageId" = some messageId)
    : Sound (fun _ => Memory.Settled) (applyEdit sid messageId roomId text encrypted reqId)
        { req := .message sid .edit d } := by
  refine .bind <| .identifiedPlayer rfl (fun actor => .respondError ⟨rfl, rfl⟩) fun player hname => ?_
  dsimp only
  split
  . exact .respondError ⟨rfl, rfl⟩
  refine .bind <| .nowMs fun editedAt => ?_
  refine .bind <| .editFoundMessage rfl hid rfl hname fun result => ?_
  split
  . exact .respondError ⟨rfl, rfl⟩
  . refine .bind <| .broadcastToRoom <| .bind <|
      .respondOk (Memory.unbound_of_op _ rfl (by decide) (by decide)) ?_
    dsimp only
    split
    . exact .bind <| .spawnPreview <| .pure ⟨rfl, rfl⟩
    . exact .bind <| .pure <| .pure ⟨rfl, rfl⟩

theorem editMessage (sid : String) (d : Json)
    : Sound (fun _ => Memory.Settled) (editMessage sid d) { req := .message sid .edit d } := by
  refine .bind <| .hitRateLimit fun limited => ?_
  split
  . exact .respondError ⟨rfl, rfl⟩
  split
  next messageId hid =>
    split
    . exact .respondError ⟨rfl, rfl⟩
    . dsimp only
      split
      . exact .respondError ⟨rfl, rfl⟩
      split
      . exact .respondError ⟨rfl, rfl⟩
      . exact .applyEdit hid
  next => exact .respondError ⟨rfl, rfl⟩

end Editing

theorem findPreviewTarget {sid roomId messageId url : String} {d : Json} {reqId : Option String}
    : Sound (fun _ => Memory.Settled) (findPreviewTarget sid roomId messageId url reqId)
        { req := .message sid .linkPreview d } := by
  refine .bind <| .identifiedPlayer rfl (fun actor => .respondError ⟨rfl, rfl⟩) fun player hname => ?_
  dsimp only
  split
  . exact .respondError ⟨rfl, rfl⟩
  refine .bind <| .hitRateLimit fun limited => ?_
  split
  . exact .respondError ⟨rfl, rfl⟩
  refine .bind <| .look fun found => ?_
  have hunbound (g : Memory) (hreq : g.req = .message sid .linkPreview d) : g.Unbound :=
    Memory.unbound_of_op _ (by rw [hreq]; rfl) (by decide) (by decide)
  split
  . split
    . exact .respondError ⟨rfl, rfl⟩
    split
    . exact .respondError ⟨rfl, rfl⟩
    split
    . exact .respondOk (hunbound _ rfl) ⟨rfl, rfl⟩
    . exact .bind <| .respondOk (hunbound _ rfl) <| .bind <| .spawnPreview <| .pure ⟨rfl, rfl⟩
  . exact .respondError ⟨rfl, rfl⟩

theorem requestLinkPreview (sid : String) (d : Json)
    : Sound (fun _ => Memory.Settled) (requestLinkPreview sid d)
        { req := .message sid .linkPreview d } := by
  unfold Lqxp.requestLinkPreview
  dsimp only
  split
  . split
    . exact .respondError ⟨rfl, rfl⟩
    . split
      . split
        . split
          . exact .findPreviewTarget
          . exact .respondError ⟨rfl, rfl⟩
        . exact .respondError ⟨rfl, rfl⟩
      . exact .respondError ⟨rfl, rfl⟩
  . exact .respondError ⟨rfl, rfl⟩

end Sound

end Lqxp
