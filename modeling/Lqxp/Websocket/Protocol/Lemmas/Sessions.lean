import Lqxp.Websocket.Protocol.Lemmas.Messages

/-!
This module contains the proofs that the life of a session only consists of steps that `Transition`
allows.
-/

namespace Lqxp

namespace Sound

variable {g : Memory} {post : α → Memory → Prop}

theorem registerConnection (sid : String)
    : Sound (fun _ => Memory.Settled) (registerConnection sid) { req := .connect sid } := by
  refine Prog.Spec.atom_iff.2 fun e s => ?_
  split
  . exact ⟨Keeps.refl s, rfl, rfl⟩
  . exact ⟨⟨rfl, rfl⟩, rfl, rfl⟩

section Identify

theorem sessionUserId {token : String} {post : Option (Option String) → Memory → Prop}
    (hnone : ∀ result, (∀ userId, result ≠ some (some userId)) → post result g)
    (h : ∀ tokenHash userId,
      post (some (some userId)) { g with token := some (tokenHash, userId), account := none })
    : Sound post (sessionUserId token) g := by
  refine Prog.Spec.atom_iff.2 fun e s => ?_
  split
  . exact ⟨Keeps.refl s, hnone _ (by simp)⟩
  . dsimp only
    split
    next row hrow =>
      split
      . exact ⟨⟨rfl, row, hrow, rfl⟩, h _ _⟩
      . exact ⟨Keeps.refl s, hnone _ (by simp)⟩
    next => exact ⟨Keeps.refl s, hnone _ (by simp)⟩

theorem userById {tokenHash userId : String} {post : Option (Option AuthenticatedUser) → Memory → Prop}
    (htoken : g.token = some (tokenHash, userId))
    (hnone : ∀ result,
      (∀ user, result = some (some user) → (user.disabled || user.banned) = true) → post result g)
    (h : ∀ user, (user.disabled || user.banned) = false →
      post (some (some user)) { g with account := some user.id })
    : Sound post (userById userId) g := by
  refine Prog.Spec.atom_iff.2 fun e s => ?_
  split
  . exact ⟨Keeps.refl s, hnone _ (by simp)⟩
  . split
    next user huser =>
      dsimp only
      split
      next hoff =>
        refine ⟨Keeps.refl s, hnone _ fun user' huser' => ?_⟩
        obtain rfl := Option.some.inj (Option.some.inj huser')
        exact hoff
      next hon =>
        have hon : (user.disabled || user.banned) = false := Bool.eq_false_iff.2 hon
        obtain ⟨hdisabled, hbanned⟩ := Bool.or_eq_false_iff.1 hon
        exact ⟨⟨rfl, _, _, user, htoken, huser, rfl, hdisabled, hbanned⟩,
          h (s.accounts.authenticatedUser user) hon⟩
    next => exact ⟨Keeps.refl s, hnone _ (by simp)⟩

theorem authenticateToken {token : String}
    {post : Option (Option AuthenticatedUser) → Memory → Prop}
    (hnone : ∀ result token account, (∀ user, result ≠ some (some user)) →
      post result { g with token, account })
    (h : ∀ user token, post (some (some user)) { g with token, account := some user.id })
    : Sound post (authenticateToken token) g := by
  refine .bind <| .sessionUserId (fun result hresult => ?_) fun tokenHash userId => ?_
  . split
    . exact .pure (hnone none g.token g.account (by simp))
    . exact .pure (hnone (some none) g.token g.account (by simp))
    next userId => exact absurd rfl (hresult userId)
  . dsimp only
    refine .bind <| .userById rfl (fun result hresult => ?_) fun user hon => ?_
    . split
      . exact .pure (hnone none _ _ (by simp))
      . exact .pure (hnone (some none) _ _ (by simp))
      next user =>
        rw [if_pos (hresult user rfl)]
        exact .pure (hnone (some none) _ _ (by simp))
    . dsimp only
      rw [if_neg (by simp [hon])]
      exact .pure (h user _)

theorem updateStatus {userId : String} {status : UserPresenceStatus} {post : Bool → Memory → Prop}
    (h : ∀ result, post result g) : Sound post (updateStatus userId status) g := by
  refine Prog.Spec.atom_iff.2 fun e s => ?_
  split
  . exact ⟨Keeps.refl s, h _⟩
  . refine ⟨⟨rfl, rfl, fun _ => rfl, rfl, fun key => ?_⟩, h _⟩
    dsimp only
    rw [AssocMap.lookup_modify]
    split
    next heq =>
      subst heq
      simp [Option.map_map, Function.comp_def]
    next => rfl

theorem bindSession {sid : String} {account : AuthenticatedUser} {status : UserPresenceStatus}
    {d : Json} {post : Option (String × PlayerSession) → Memory → Prop}
    (hop : g.req.op? = some .identify) (haccount : g.account = some account.id)
    (h : ∀ result, post result g)
    : Sound post (bindSession sid account status d) g := by
  refine Prog.Spec.atom_iff.2 fun e s => ?_
  split
  . exact ⟨Keeps.refl s, h _⟩
  . exact ⟨⟨hop, haccount, .identifyAs account status d e.now, fun _ => ⟨rfl, rfl, rfl⟩, rfl⟩, h _⟩

theorem broadcastSyncPeerEvent {userId event clientId platform : String} {exclude : Option String}
    {post : Unit → Memory → Prop} (h : post () g)
    : Sound post (broadcastSyncPeerEvent userId event clientId platform exclude) g := by
  unfold Lqxp.broadcastSyncPeerEvent
  split
  . exact .pure h
  . exact fun _ s => ⟨Keeps.refl s, h⟩

-- Its first step asks about a text, and to look for that step goes through the text's characters.
attribute [local irreducible] Lqxp.broadcastSyncPeerEvent

theorem completeIdentify {sid : String} {d : Json} {account : AuthenticatedUser}
    {status : UserPresenceStatus} {reqId : Option String} {token : Option (String × String)}
    : Sound (fun _ => Memory.Settled) (completeIdentify sid d account status reqId)
        { req := .message sid .identify d, token, account := some account.id } := by
  refine .bind <| .bindSession rfl rfl fun bound => ?_
  split
  . refine .bind <| .look fun defaultRoom => .bind <| .respondToSender ?_ ?_
    . exact (Memory.unbound_of_op _ rfl (by decide) (by decide)).confirms _
    . dsimp only
      split
      . exact .bind <| .broadcastSyncPeerEvent <| .pure ⟨rfl, rfl⟩
      . exact .pure ⟨rfl, rfl⟩
  . exact .pure ⟨rfl, rfl⟩

theorem identifyPlayer (sid : String) (d : Json)
    : Sound (fun _ => Memory.Settled) (identifyPlayer sid d) { req := .message sid .identify d } := by
  unfold Lqxp.identifyPlayer
  dsimp only
  split
  . refine .bind <| .authenticateToken (fun result token account hresult => ?_) fun account token => ?_
    . split
      . exact .respondError ⟨rfl, rfl⟩
      . exact .respondError ⟨rfl, rfl⟩
      next user => exact absurd rfl (hresult user)
    . dsimp only
      split
      . exact .bind <| .updateStatus fun updated => .completeIdentify
      . exact .completeIdentify
  . exact .respondError ⟨rfl, rfl⟩

end Identify

section History

theorem dispatchRoomHistory {sid roomId : String} {reqId : Option String}
    {post : Unit → Memory → Prop} (hunbound : g.Unbound) (h : post () g)
    : Sound post (dispatchRoomHistory sid roomId reqId) g :=
  .bind <| .look fun _ => .bind <| .look fun _ => .respondToSender (hunbound.confirms _) h

theorem sendRoomHistory (sid : String) (d : Json)
    : Sound (fun _ => Memory.Settled) (sendRoomHistory sid d) { req := .message sid .history d } := by
  refine .bind <| .hitRateLimit fun limited => ?_
  split
  . exact .respondError ⟨rfl, rfl⟩
  refine .bind <| .look fun resolved => ?_
  split
  . exact .respondError ⟨rfl, rfl⟩
  . exact .bind <| .dispatchRoomHistory (Memory.unbound_of_op _ rfl (by decide) (by decide)) <|
      .pure ⟨rfl, rfl⟩

end History

section Rooms

theorem enterRoom {sid roomId : String}
    {post : Except String (Bool × String × String) → Memory → Prop}
    (herror : ∀ text, post (.error text) g)
    (hin : ∀ username userId, post (.ok (true, username, userId)) g)
    (h : ∀ username userId,
      post (.ok (false, username, userId)) { g with entering := some (sid, roomId, userId) })
    (hentering : g.entering = none) : Sound post (enterRoom sid roomId) g := by
  refine Prog.Spec.atom_iff.2 fun e s => ?_
  split
  . exact ⟨Keeps.refl s, herror _⟩
  next player hplayer =>
    split
    . exact ⟨Keeps.refl s, herror _⟩
    split
    . exact ⟨Keeps.refl s, herror _⟩
    split
    . exact ⟨Keeps.refl s, hin _ _⟩
    . exact ⟨⟨rfl, ⟨player, hplayer, rfl⟩, hentering⟩, h _ _⟩

theorem exitRoom {sid roomId : String} {post : Unit → Memory → Prop}
    (hentering : ∀ x, g.entering = some x → x.1 = sid ∧ x.2.1 = roomId)
    (h : post () { g with entering := none }) : Sound post (exitRoom sid roomId) g :=
  Prog.Spec.atom_iff.2 fun _ _ => ⟨⟨rfl, hentering⟩, h⟩

theorem recordOrRoster {roomId : String} {viewer : Option String} {post : RoomRecord → Memory → Prop}
    (h : ∀ result room, post result (g.next (.read roomId room)))
    : Sound post (recordOrRoster roomId viewer) g :=
  .bind <| .roomRecord fun room => .bind <| .look fun _ => .pure (h _ room)

theorem completeJoin {sid roomId username userId : String} {alreadyIn silentJoin : Bool}
    {reqId : Option String} (hop : g.req.op? = some .join) (hsteady : g.Steady roomId)
    : Sound (fun _ => Memory.Settled)
        (completeJoin sid roomId username userId alreadyIn silentJoin reqId) g := by
  refine .bind <| .look fun status => .bind <| .recordOrRoster fun result room => ?_
  refine .bind <| .look fun broadcastRosters => .bind <| .look fun rosters => ?_
  have hsettled := (hsteady.read roomId room).settled
  have hunbound : (g.next (.read roomId room)).Unbound :=
    Memory.unbound_of_op .join (by simpa using hop) (by decide) (by decide)
  dsimp only
  split
  . exact .bind <| .broadcastToRoom <| .bind <| .respondOk hunbound <| .bind <|
      .dispatchRoomHistory hunbound <| .pure hsettled
  . exact .bind <| .respondOk hunbound <| .bind <| .dispatchRoomHistory hunbound <| .pure hsettled

theorem joinGame (sid : String) (d : Json)
    : Sound (fun _ => Memory.Settled) (joinGame sid d) { req := .message sid .join d } := by
  refine .bind <| .hitRateLimit fun limited => ?_
  split
  . exact .respondError ⟨rfl, rfl⟩
  split
  next roomId _ =>
    dsimp only
    split
    . exact .respondError ⟨rfl, rfl⟩
    refine .bind <| .enterRoom (fun _ => .respondError ⟨rfl, rfl⟩) (fun username userId => ?_)
      (fun username userId => ?_) rfl
    . exact .completeJoin rfl ⟨rfl, rfl, by simp [Request.op?]⟩
    . refine .bind <| .roomRecord fun room => ?_
      split
      . refine .bind <| .exitRoom (by simp [Memory.next]) <| .bind <| .respondToSender ?_ <| .pure ⟨rfl, rfl⟩
        exact Memory.confirms_error _ _ _ _ _ rfl
      next hfree =>
        have hsteady (g : Memory) (hreq : g.req = .message sid .join d) (hsettled : g.Settled)
            : g.Steady roomId := hsettled.steady (by simp [hreq, Request.op?]) roomId
        refine .bind <| .syncRoomRecord (by simp [Memory.Makes, Request.op?, Request.concernsRooms,
          Op.onMessages]) rfl fun synced g' hfollows _ => ?_
        refine .completeJoin (by rw [hfollows.req]; rfl) (hfollows.steady (hsteady _ rfl ⟨?_, rfl⟩))
        simpa [Memory.next] using hfree
  next => exact .respondError ⟨rfl, rfl⟩

theorem quitRoom {sid roomId : String}
    {post : Except String (String × String × Bool) → Memory → Prop} (hentering : g.entering = none)
    (h : ∀ result, post result g)
    : Sound post (quitRoom sid roomId) g := by
  refine Prog.Spec.atom_iff.2 fun e s => ?_
  split
  . exact ⟨Keeps.refl s, h _⟩
  . split
    . refine ⟨⟨rfl, by simp [hentering]⟩, ?_⟩
      have hnext : g.next (.left sid roomId) = g := by
        cases g
        simpa [Memory.next] using hentering.symm
      simpa [hnext] using h _
    . exact ⟨Keeps.refl s, h _⟩

theorem clearOnLeave {roomId username : String} {shouldClearMessages : Bool}
    {post : List String → Memory → Prop}
    (hreq : g.req.clears) (h : ∀ ids now, post ids { g with now })
    : Sound post (clearOnLeave roomId username shouldClearMessages) g := by
  unfold Lqxp.clearOnLeave
  split
  . exact .deleteUserMessagesInRoomAndBroadcast hreq h
  . exact .pure (h _ g.now)

theorem leaveGame (sid : String) (d : Json)
    : Sound (fun _ => Memory.Settled) (leaveGame sid d) { req := .message sid .leave d } := by
  refine .bind <| .hitRateLimit fun limited => ?_
  split
  . exact .respondError ⟨rfl, rfl⟩
  split
  next roomId _ =>
    split
    . exact .respondError ⟨rfl, rfl⟩
    refine .bind <| .quitRoom rfl fun quit => ?_
    split
    . exact .respondError ⟨rfl, rfl⟩
    refine .bind <| .syncRoomRecord (by simp [Memory.Makes, Request.op?, Request.concernsRooms,
      Op.onMessages]) rfl fun synced g' hfollows _ => ?_
    refine .bind <| .look fun rosters => .bind <| .recordOrRoster fun result room => ?_
    have hsettled := ((hfollows.steady ⟨rfl, rfl, by simp [Request.op?]⟩).read roomId room).settled
    have hop : g'.req.op? = some .leave := by rw [hfollows.req]; rfl
    refine .bind <| .broadcastToRoom <| .bind <| .clearOnLeave (by rw [Memory.next_req, hfollows.req]; rfl)
      fun ids now => ?_
    exact .respondOk (Memory.unbound_of_op .leave hop (by decide) (by decide))
      ⟨hsettled.entering, hsettled.evicting⟩
  next => exact .respondError ⟨rfl, rfl⟩

end Rooms

section Disconnect

attribute [local irreducible] Lqxp.broadcastSyncPeerEvent

/--
What stays true of the memory while a disconnected session leaves its rooms.
-/
structure Leaving (sid : String) (g : Memory) : Prop where
  req : g.req = .disconnect sid
  created : g.created = none
  settled : g.Settled

theorem Leaving.op {sid : String} (h : Leaving sid g) : g.req.op? = none := by
  rw [h.req]
  rfl

theorem Leaving.read {sid : String} (h : Leaving sid g) (roomId : String)
    (result : Option RoomRecord) : Leaving sid (g.next (.read roomId result)) := by
  have hsteady := h.settled.steady (by simp [h.op]) roomId
  exact ⟨h.req, h.created, (hsteady.read roomId result).settled⟩

theorem announceLeft {sid : String} {player : PlayerSession} {gameId : String}
    {post : Unit → Memory → Prop} (hleaving : Leaving sid g)
    (h : ∀ g', Leaving sid g' → post () g') : Sound post (announceLeft player gameId) g := by
  unfold Lqxp.announceLeft
  split
  . exact .pure (h g hleaving)
  . exact .bind <| .roomRecord fun room => .broadcastToRoom (h _ (hleaving.read gameId room))

theorem announceHungUp {player : PlayerSession} {gameId : String} {post : Unit → Memory → Prop}
    (h : post () g) : Sound post (announceHungUp player gameId) g := by
  unfold Lqxp.announceHungUp
  split
  . exact .pure h
  . exact .broadcastToRoom h

theorem leaveBehind {sid : String} {player : PlayerSession} {gameId : String}
    {post : Unit → Memory → Prop} (hleaving : Leaving sid g)
    (h : ∀ g', Leaving sid g' → post () g') : Sound post (leaveBehind player gameId) g := by
  refine .bind <| .syncRoomRecord (by simp [Memory.Makes, hleaving.req, Request.op?,
    Request.concernsRooms]) hleaving.created fun synced g' hfollows _ => ?_
  have hsteady := hfollows.steady (hleaving.settled.steady (by simp [hleaving.op]) gameId)
  have hleaving' : Leaving sid g' :=
    ⟨hfollows.req.trans hleaving.req, hfollows.created.trans hleaving.created, hsteady.settled⟩
  refine .bind <| .announceLeft hleaving' fun g'' hleaving'' => ?_
  refine .bind <| .clearOnLeave (by rw [hleaving''.req]; rfl) fun ids now => .announceHungUp ?_
  exact h _ ⟨hleaving''.req, hleaving''.created, hleaving''.settled.entering,
    hleaving''.settled.evicting⟩

theorem leaveBehindAll {sid : String} {player : PlayerSession} {rooms : List String}
    (hleaving : Leaving sid g)
    : Sound (fun _ => Memory.Settled) (leaveBehindAll player rooms) g := by
  induction rooms generalizing g with
  | nil => exact .pure hleaving.settled
  | cons gameId rooms ih => exact .bind <| .leaveBehind hleaving fun g' hleaving' => ih hleaving'

theorem removePlayer {sid : String} {post : Option PlayerSession → Memory → Prop}
    (h : ∀ result, post result g) : Sound post (removePlayer sid) g := by
  refine Prog.Spec.atom_iff.2 fun e s => ?_
  split
  . exact ⟨rfl, h _⟩
  . exact ⟨Keeps.refl s, h _⟩

theorem disconnectPlayer (sid : String)
    : Sound (fun _ => Memory.Settled) (disconnectPlayer sid) { req := .disconnect sid } := by
  refine .bind <| .removePlayer fun removed => ?_
  split
  . split
    . exact .bind <| .broadcastSyncPeerEvent <| .leaveBehindAll ⟨rfl, rfl, rfl, rfl⟩
    . exact .leaveBehindAll ⟨rfl, rfl, rfl, rfl⟩
  . exact .pure ⟨rfl, rfl⟩

end Disconnect

end Sound

end Lqxp
