import Lqxp.Websocket.Protocol.Lemmas.Steps

/-!
This module contains the proofs that the handlers of rooms only make the steps that `Transition`
allows.
-/

namespace Lqxp

namespace Sound

variable {g : Memory} {post : α → Memory → Prop}

section Shared

theorem sessionIdentity {sid : String} {post : Option (String × String) → Memory → Prop}
    (hsid : g.req.sid? = some sid) (hnone : ∀ actor, post none { g with actor })
    (h : ∀ actor, post (some actor) { g with actor := some actor })
    : Sound post (sessionIdentity sid) g := by
  refine .bind <| .getPlayer hsid (.pure (hnone g.actor)) fun player => ?_
  dsimp only
  split
  . exact .pure (hnone _)
  . exact .pure (h _)

theorem accountOf {sid : String} {post : String → Memory → Prop} (hsid : g.req.sid? = some sid)
    (h : ∀ userId actor, post userId { g with actor }) : Sound post (accountOf sid) g :=
  .bind <| .getPlayer hsid (.pure (h _ g.actor)) fun _ => .pure (h _ _)

theorem resolveTarget {d : Json} {post : Except String (String × String) → Memory → Prop}
    (hevicting : g.evicting = none) (herror : ∀ text, post (.error text) g)
    (h : ∀ targetId targetName, post (.ok (targetId, targetName)) (g.next (.target targetId)))
    : Sound post (resolveTarget d) g := by
  refine Prog.Spec.atom_iff.2 fun e s => ?_
  split
  . exact ⟨⟨rfl, hevicting⟩, h _ _⟩
  . split
    . split
      . exact ⟨⟨rfl, hevicting⟩, h _ _⟩
      . exact ⟨Keeps.refl s, herror _⟩
    . exact ⟨Keeps.refl s, herror _⟩

theorem withTarget {sid : String} {op : Nat} {d : Json} {body : String → String → Proto Bool}
    (hsettled : g.Settled)
    (h : ∀ targetId targetName,
      Sound (fun _ => Memory.Settled) (body targetId targetName) (g.next (.target targetId)))
    : Sound (fun _ => Memory.Settled) (withTarget sid op d body) g :=
  .bind <| .resolveTarget hsettled.evicting (fun _ => .respondError hsettled) h

theorem broadcastRoomRecordToMembers {roomId : String} {op : Nat} {reqId : Option String}
    {room : RoomRecord} {post : Unit → Memory → Prop} (h : post () g)
    : Sound post (broadcastRoomRecordToMembers roomId op reqId room) g :=
  .broadcastToRoom h

theorem announceRoom {sid : String} {op : Nat} {roomId : String} {room : RoomRecord}
    {reqId : Option String} {post : Bool → Memory → Prop} (hunbound : g.Unbound) (h : post false g)
    : Sound post (announceRoom sid op roomId room reqId) g :=
  .bind <| .broadcastRoomRecordToMembers <| .respondOk hunbound h

theorem saveRoom {sid : String} {op : Nat} {failure roomId : String} {room snapshot : RoomRecord}
    {reqId : Option String} (edit : RoomEdit) (hbase : g.base = some (roomId, some snapshot))
    (hmakes : g.Makes edit) (hpermitted : edit.Permitted g.actorId snapshot)
    (hroom : room = edit.apply g.actorId snapshot) (hunbound : g.Unbound) (hsteady : g.Steady roomId)
    : Sound (fun _ => Memory.Settled) (saveRoom sid op failure roomId room reqId) g := by
  refine .bind <| .setRoomRecord _ _ hbase hmakes hpermitted (by rw [hroom]; rfl) ?_ ?_
  . exact .respondError hsteady.settled
  . refine .bind <| .roomRecord fun stored => ?_
    refine .announceRoom ?_ ((hsteady.wrote _).read _ _).settled
    simpa [Memory.Unbound] using hunbound

end Shared

/--
The memory of a run that has read the record of the room that it works on.
-/
def working (req : Request) (actor : String × String) (roomId : String) (room : RoomRecord) : Memory :=
  { req, actor := some actor, base := some (roomId, some room) }

@[simp]
theorem working_actorId (req : Request) (actor : String × String) (roomId : String)
    (room : RoomRecord) : (working req actor roomId room).actorId = actor.1 := rfl

@[simp]
theorem working_req (req : Request) (actor : String × String) (roomId : String) (room : RoomRecord)
    : (working req actor roomId room).req = req := rfl

theorem communityRequest {sid : String} {op : Op} {d : Json} {code : Nat} {key : String}
    {limit windowMs : Nat} {notCommunity : String}
    {body : String × String → String → RoomRecord → Proto Bool}
    (h : ∀ actor roomId room, room.kind = .community →
      Sound (fun _ => Memory.Settled) (body actor roomId room)
        (working (.message sid op d) actor roomId room))
    : Sound (fun _ => Memory.Settled)
        (communityRequest code key limit windowMs notCommunity sid d body)
        { req := .message sid op d } := by
  refine .bind <| .hitRateLimit fun limited => ?_
  split
  . exact .respondError ⟨rfl, rfl⟩
  refine .bind <| .sessionIdentity rfl (fun actor => .respondError ⟨rfl, rfl⟩) fun actor => ?_
  refine .bind <| .look fun resolved => ?_
  split
  . exact .respondError ⟨rfl, rfl⟩
  next roomId =>
    refine .bind <| .roomRecord fun result => ?_
    split
    next room =>
      split
      . exact .respondError ⟨rfl, rfl⟩
      next hkind => exact h actor roomId room (by simpa using hkind)
    next => exact .respondError ⟨rfl, rfl⟩

theorem saveWorking {op : Op} {d : Json} {actor : String × String} {roomId sid sid' failure : String}
    {code : Nat} {room room' : RoomRecord} {reqId target banned : Option String} {now : Option Nat}
    (edit : RoomEdit)
    (hmakes : ∀ g : Memory, g.req.op? = some op → g.target = target → g.Makes edit)
    (hpermitted : edit.Permitted actor.1 room) (hroom : room' = edit.apply actor.1 room)
    (hban : op ≠ .ban) (hcreate : op ≠ .create)
    : Sound (fun _ => Memory.Settled) (Lqxp.saveRoom sid code failure roomId room' reqId)
        { working (.message sid' op d) actor roomId room with target, banned, now } :=
  .saveRoom edit rfl (hmakes _ rfl rfl) hpermitted hroom
    (Memory.unbound_of_op _ rfl hban hcreate) ⟨rfl, rfl, fun h => absurd (Option.some.inj h) hban⟩

section Settings

theorem changeSetting {sid : String} {op : Op} {d : Json} {code : Nat} {key : String}
    {limit windowMs : Nat} {notAllowed failure : String} {change : RoomRecord → RoomRecord}
    (edit : RoomEdit) (hmakes : ∀ g : Memory, g.req.op? = some op → g.Makes edit)
    (hpermitted : ∀ actor room, room.kind = .community → isRoomAdmin room actor →
      edit.Permitted actor room)
    (hchange : ∀ actor room, change room = edit.apply actor room)
    (hban : op ≠ .ban) (hcreate : op ≠ .create)
    : Sound (fun _ => Memory.Settled)
        (changeSetting code key limit windowMs notAllowed failure sid d change)
        { req := .message sid op d } := by
  refine .communityRequest fun actor roomId room hkind => ?_
  split
  . exact .respondError ⟨rfl, rfl⟩
  next hadmin =>
    have hadmin : isRoomAdmin room actor.1 := by simpa using hadmin
    exact .saveWorking edit (fun g hop _ => hmakes g hop) (hpermitted _ _ hkind hadmin) (hchange _ _)
      hban hcreate

theorem setChatLock (sid : String) (d : Json)
    : Sound (fun _ => Memory.Settled) (setChatLock sid d) { req := .message sid .chatLock d } :=
  .changeSetting (.setChatLock _) (fun _ h => h) (fun _ _ hkind hadmin => ⟨hkind, hadmin⟩)
    (fun _ _ => rfl) (by decide) (by decide)

theorem setCallsEnabled (sid : String) (d : Json)
    : Sound (fun _ => Memory.Settled) (setCallsEnabled sid d)
        { req := .message sid .callsEnabled d } :=
  .changeSetting (.setCallsEnabled _) (fun _ h => h) (fun _ _ hkind hadmin => ⟨hkind, hadmin⟩)
    (fun _ _ => rfl) (by decide) (by decide)

theorem setModeratorPermissions (sid : String) (d : Json)
    : Sound (fun _ => Memory.Settled) (setModeratorPermissions sid d)
        { req := .message sid .moderatorPermissions d } := by
  refine .communityRequest fun actor roomId room hkind => ?_
  split
  . exact .respondError ⟨rfl, rfl⟩
  next hadmin =>
    split
    next modPermissions _ =>
      exact .saveWorking (.setModeratorPermissions modPermissions) (fun _ hop _ => hop)
        ⟨hkind, by simpa using hadmin⟩ rfl (by decide) (by decide)
    next => exact .respondError ⟨rfl, rfl⟩

theorem updateRoomDescription (sid : String) (d : Json)
    : Sound (fun _ => Memory.Settled) (updateRoomDescription sid d)
        { req := .message sid .roomDescription d } := by
  refine .communityRequest fun actor roomId room hkind => ?_
  split
  . exact .respondError ⟨rfl, rfl⟩
  next hadmin =>
    refine .bind <| .setRoomRecord (some room) (.setDescription _) rfl rfl
      ⟨hkind, by simpa using hadmin⟩ rfl ?_ ?_
    . exact .respondError ⟨rfl, rfl⟩
    . have hsteady : (working (.message sid .roomDescription d) actor roomId room).Steady roomId :=
        ⟨rfl, rfl, by simp [Request.op?]⟩
      exact .announceRoom (Memory.unbound_of_op _ rfl (by decide) (by decide))
        (hsteady.wrote _).settled

theorem changeRoom {sid : String} {op : Op} {d : Json} {code : Nat} {key limited : String}
    {limit windowMs : Nat} {body : String → Proto Bool}
    (h : ∀ actor roomId base,
      Sound (fun _ => Memory.Settled) (body roomId) { req := .message sid op d, actor, base })
    : Sound (fun _ => Memory.Settled) (changeRoom code key limit windowMs limited sid d body)
        { req := .message sid op d } := by
  refine .bind <| .accountOf rfl fun userId actor => ?_
  refine .bind <| .hitRateLimit fun hit => ?_
  split
  . exact .respondError ⟨rfl, rfl⟩
  refine .bind <| .look fun resolved => ?_
  split
  . exact .respondError ⟨rfl, rfl⟩
  refine .bind <| .roomRecord fun room => ?_
  split
  . exact .respondError ⟨rfl, rfl⟩
  . exact h _ _ _

theorem updateRoomTitle (sid : String) (d : Json)
    : Sound (fun _ => Memory.Settled) (updateRoomTitle sid d)
        { req := .message sid .roomTitle d } := by
  refine .changeRoom fun actor roomId base => ?_
  refine .bind <| .syncRoomRecord (by simp [Memory.Makes, Request.op?, Request.concernsRooms,
    Op.onMessages]) rfl fun result g' hfollows hbase => ?_
  have hsteady := hfollows.steady ⟨rfl, rfl, by simp [Request.op?]⟩
  have hop : g'.req.op? = some .roomTitle := by rw [hfollows.req]; rfl
  split
  next room =>
    refine .bind <| .setRoomRecord _ (.setTitle (roomTitle d roomId)) (hbase room rfl) hop trivial rfl ?_ ?_
    . exact .respondError hsteady.settled
    . exact .announceRoom (Memory.unbound_of_op .roomTitle (by simpa using hop) (by decide) (by decide))
        (hsteady.wrote _).settled
  next => exact .respondError hsteady.settled

theorem storeRoomIconFromPayload {d : Json} {roomId : String}
    {post : Except String (Option RoomIcon) → Memory → Prop} (hnone : ∀ result, post result g)
    (h : ∀ result room, post result (g.next (.read roomId room)))
    : Sound post (storeRoomIconFromPayload d roomId) g := by
  unfold Lqxp.storeRoomIconFromPayload
  split
  next obj _ =>
    split
    . exact .pure (hnone _)
    . refine .bind <| .roomIcon fun icon room => .bind <| .removeIconFile <| .bind <| .storeUploadedBytes fun stored => ?_
      split
      . exact .pure (h _ _)
      . exact .pure (h _ _)
  next => exact .pure (hnone _)

theorem uploadRoomIcon (sid : String) (d : Json)
    : Sound (fun _ => Memory.Settled) (uploadRoomIcon sid d)
        { req := .message sid .roomIcon d } := by
  refine .changeRoom fun actor roomId base => ?_
  have hrest (result : Except String (Option RoomIcon)) (g : Memory)
      (hreq : g.req = .message sid .roomIcon d) (hcreated : g.created = none)
      (hsteady : g.Steady roomId)
      : Sound (fun _ => Memory.Settled) (finishRoomIcon sid d roomId result) g := by
    unfold finishRoomIcon
    split
    . exact .respondError hsteady.settled
    . exact .respondError hsteady.settled
    next icon =>
      refine .bind <| .setRoomIcon (by simp [Memory.Makes, hreq, Request.op?, Request.concernsRooms,
        Op.onMessages]) hcreated fun result g' hicon => ?_
      split
      . refine .bind <| .syncRoomRecord (by simp [Memory.Makes, hicon.req, hreq, Request.op?,
          Request.concernsRooms, Op.onMessages]) (hicon.created.trans hcreated)
          fun synced g'' hsync _ => ?_
        refine .bind <| .roomRecord fun stored => .bind <| .look fun members => ?_
        have hsteady' := (hsync.steady (hicon.steady hsteady)).read roomId stored
        have hop : (g''.next (.read roomId stored)).req.op? = some .roomIcon := by
          simp [hsync.req, hicon.req, hreq, Request.op?]
        exact .bind <| .broadcastRoomRecordToMembers <|
          .respondOk (Memory.unbound_of_op .roomIcon hop (by decide) (by decide)) hsteady'.settled
      . exact .respondError (hicon.steady hsteady).settled
  refine .bind <| .storeRoomIconFromPayload (fun result => ?_) fun result room => ?_
  . exact hrest result _ rfl rfl ⟨rfl, rfl, by simp [Request.op?]⟩
  . exact hrest result _ rfl rfl (Memory.Steady.read ⟨rfl, rfl, by simp [Request.op?]⟩ _ _)

end Settings

section Members

theorem setMemberRole (sid : String) (d : Json)
    : Sound (fun _ => Memory.Settled) (setMemberRole sid d)
        { req := .message sid .memberRole d } := by
  refine .communityRequest fun actor roomId room hkind => ?_
  split
  . exact .respondError ⟨rfl, rfl⟩
  next hadmin =>
    split
    next newRole _ =>
      split
      . exact .respondError ⟨rfl, rfl⟩
      next hnew =>
        refine .withTarget ⟨rfl, rfl⟩ fun targetId targetName => ?_
        dsimp only
        split
        . exact .respondError ⟨rfl, rfl⟩
        split
        . exact .respondError ⟨rfl, rfl⟩
        split
        . exact .respondError ⟨rfl, rfl⟩
        split
        . exact .respondError ⟨rfl, rfl⟩
        next hself hcurrent hmoderators hsubAdmins =>
          refine .saveWorking (.setRole targetId newRole) (fun _ hop htarget => ⟨hop, htarget⟩) ?_ rfl
            (by decide) (by decide)
          refine ⟨hkind, by simpa using hadmin, hself, hnew, hcurrent, ?_, ?_⟩
          . intro hrole hother
            simpa [hrole, hother] using hmoderators
          . intro hrole hother
            simpa [hrole, hother] using hsubAdmins
    next => exact .respondError ⟨rfl, rfl⟩

theorem transferOwnership (sid : String) (d : Json)
    : Sound (fun _ => Memory.Settled) (transferOwnership sid d)
        { req := .message sid .transfer d } := by
  refine .communityRequest fun actor roomId room hkind => ?_
  split
  . exact .respondError ⟨rfl, rfl⟩
  next howner =>
    refine .withTarget ⟨rfl, rfl⟩ fun targetId targetName => ?_
    dsimp only
    split
    . exact .respondError ⟨rfl, rfl⟩
    split
    . exact .respondError ⟨rfl, rfl⟩
    next hrole hslot =>
      refine .saveWorking (.transfer targetId) (fun _ hop htarget => ⟨hop, htarget⟩)
        ⟨hkind, by simpa using howner, ?_⟩ rfl (by decide) (by decide)
      by_cases hsub : roleInRoom room targetId = .subAdministrator
      . exact .inl hsub
      . exact .inr ⟨by simpa [hsub] using hrole, by simpa [hsub] using hslot⟩

theorem moderate {sid : String} {op : Op} {d : Json} {code : Nat} {action : ModAction}
    {actor : String × String} {roomId : String} {room : RoomRecord} {notSelf : Bool}
    {notAllowed : String} {body : String → String → Proto Bool}
    (h : ∀ targetId targetName, (notSelf → targetId ≠ actor.1) →
      canModerate room (roleInRoom room actor.1) (roleInRoom room targetId) action →
      Sound (fun _ => Memory.Settled) (body targetId targetName)
        { working (.message sid op d) actor roomId room with target := some targetId })
    : Sound (fun _ => Memory.Settled) (moderate sid code d action actor.1 room notSelf notAllowed body)
        (working (.message sid op d) actor roomId room) := by
  refine .withTarget ⟨rfl, rfl⟩ fun targetId targetName => ?_
  split
  . exact .respondError ⟨rfl, rfl⟩
  split
  . exact .respondError ⟨rfl, rfl⟩
  next hself hallowed =>
    refine h targetId targetName (fun hnot => ?_) (by simpa using hallowed)
    simpa [hnot] using hself

theorem removeUserFromRoom {roomId userId reason : String} {post : Unit → Memory → Prop}
    (hevicting : ∀ x, g.evicting = some x → x = (userId, roomId))
    (h : post () { g with evicting := none })
    : Sound post (removeUserFromRoom roomId userId reason) g :=
  .bind <| Prog.Spec.atom_iff.2 fun _ _ => ⟨⟨rfl, hevicting⟩, .broadcast h⟩

theorem broadcastMemberRemoved {roomId targetUsername : String} {room : RoomRecord}
    {post : Unit → Memory → Prop} (h : post () g)
    : Sound post (broadcastMemberRemoved roomId targetUsername room) g :=
  .bind <| .look fun _ => .broadcastToRoom h

theorem evictMember {sid : String} (op : Op) {d : Json} {code : Nat}
    {roomId targetId targetName reason : String} {room : RoomRecord} {reqId : Option String}
    (hreq : g.req = .message sid op d) (hmessages : op.onMessages = false) (hcreate : op ≠ .create)
    (hcreated : g.created = none)
    (hevicting : ∀ x, g.evicting = some x → x = (targetId, roomId))
    (hsteady : { g with evicting := none }.Steady roomId)
    : Sound (fun _ => Memory.Settled)
        (evictMember sid code roomId targetId targetName reason room reqId) g := by
  have hstores : g.req.concernsRooms := by simp [Request.concernsRooms, hreq, Request.op?, hmessages]
  have hban (hop : g.req.op? = some .ban) : g.banned.isSome :=
    Option.isSome_of_eq_some (hsteady.banned hop)
  refine .bind <| .removeUserFromRoom hevicting ?_
  refine .bind <| .syncRoomRecord (fun _ _ => ⟨hstores, by simp [hreq], hban⟩) hcreated fun synced g' hsync _ => ?_
  refine .bind <| .roomRecord fun stored => .bind <| .broadcastMemberRemoved ?_
  have hsteady' := (hsync.steady hsteady).read roomId stored
  have hop : (g'.next (.read roomId stored)).req.op? ≠ some .create := by
    simpa [hsync.req, hreq, Request.op?] using hcreate
  exact .bind <| .respondToSender (hsteady'.confirms hop _ _ _) hsteady'.settled

theorem banMember (sid : String) (d : Json)
    : Sound (fun _ => Memory.Settled) (banMember sid d) { req := .message sid .ban d } := by
  refine .communityRequest fun actor roomId room hkind => ?_
  refine .moderate fun targetId targetName hself hallowed => ?_
  refine .bind <| .setRoomRecord (some room) (.ban targetId targetName) rfl
    ⟨rfl, rfl, rfl⟩ ⟨hkind, hself rfl, hallowed⟩ rfl ?_ ?_
  . exact .respondError ⟨rfl, rfl⟩
  . rw [if_pos rfl, Memory.next_ban (Memory.bansTarget_eq rfl rfl (by simp)) rfl]
    exact .evictMember .ban rfl rfl (by decide) rfl (by simp) ⟨rfl, rfl, fun _ => rfl⟩

theorem kickMember (sid : String) (d : Json)
    : Sound (fun _ => Memory.Settled) (kickMember sid d) { req := .message sid .kick d } := by
  refine .communityRequest fun actor roomId room hkind => ?_
  refine .moderate fun targetId targetName hself hallowed => ?_
  exact .evictMember .kick rfl rfl (by decide) rfl (by simp [working]) ⟨rfl, rfl, by simp [working, Request.op?]⟩

theorem unbanMember (sid : String) (d : Json)
    : Sound (fun _ => Memory.Settled) (unbanMember sid d) { req := .message sid .unban d } := by
  refine .communityRequest fun actor roomId room hkind => ?_
  split
  . exact .respondError ⟨rfl, rfl⟩
  next hadmin =>
    refine .withTarget ⟨rfl, rfl⟩ fun targetId targetName => ?_
    exact .saveWorking (.unban targetId) (fun _ hop htarget => ⟨hop, htarget⟩)
      ⟨hkind, by simpa using hadmin⟩ rfl (by decide) (by decide)

theorem timeoutMember (sid : String) (d : Json)
    : Sound (fun _ => Memory.Settled) (timeoutMember sid d) { req := .message sid .timeout d } := by
  refine .communityRequest fun actor roomId room hkind => ?_
  refine .moderate fun targetId targetName hself hallowed => ?_
  refine .bind <| .nowMs fun now => ?_
  exact .saveWorking (.timeout targetId _) (fun _ hop htarget => ⟨hop, htarget⟩)
    ⟨hkind, hself rfl, hallowed⟩ rfl (by decide) (by decide)

theorem unmuteMember (sid : String) (d : Json)
    : Sound (fun _ => Memory.Settled) (unmuteMember sid d) { req := .message sid .unmute d } := by
  refine .communityRequest fun actor roomId room hkind => ?_
  refine .moderate fun targetId targetName _ hallowed => ?_
  exact .saveWorking (.unmute targetId) (fun _ hop htarget => ⟨hop, htarget⟩) ⟨hkind, hallowed⟩ rfl
    (by decide) (by decide)

end Members

section Existence

theorem createRoomIfAbsent (sid : String) {d : Json} {roomId : String}
    {post : Option Bool → Memory → Prop} (hreq : g.req = .message sid .create d)
    (hnone : ∀ result, result ≠ some true → post result g)
    (h : post (some true) (g.next (.created roomId (newRoom d roomId g.actorId))))
    : Sound post (createRoomIfAbsent roomId (newRoom d roomId g.actorId)) g := by
  refine Prog.Spec.atom_iff.2 fun e s => ?_
  split
  . exact ⟨Keeps.refl s, hnone _ (by simp)⟩
  . split
    . exact ⟨Keeps.refl s, hnone _ (by simp)⟩
    next habsent => exact ⟨⟨rfl, habsent, sid, d, hreq, rfl⟩, h⟩

theorem attachRoomIcon {d : Json} {roomId : String} {room : RoomRecord}
    {post : RoomRecord → Memory → Prop} (hmakes : ∀ icon, g.Makes (.setIcon icon)) (hbase : g.base = some (roomId, some room))
    (hcreated : g.created = some roomId) (h : ∀ result g', g.Follows roomId g' → post result g')
    : Sound post (attachRoomIcon d roomId room) g := by
  have hrest (result : Except String (Option RoomIcon)) (g' : Memory) (hfollows : g.Follows roomId g')
      (hbase' : g'.base = some (roomId, some room))
      : Sound post (finishNewRoomIcon roomId room result) g' := by
    unfold finishNewRoomIcon
    split
    next icon =>
      refine .bind <| .setRoomRecord _ (.setIcon icon) hbase'
        (by rw [Memory.Makes, hfollows.req]; exact hmakes icon) trivial rfl ?_ ?_
      . exact .pure (h _ _ hfollows)
      . exact .pure (h _ _ (hfollows.trans (.wrote _ _ _)))
    . exact .pure (h _ _ hfollows)
  refine .bind <| .storeRoomIconFromPayload (fun result => ?_) fun result read => ?_
  . exact hrest result g ⟨rfl, rfl, rfl, rfl, fun hsteady => hsteady⟩ hbase
  . exact hrest result _ (.read _ _ _ _) (by simpa [Memory.next, hcreated] using hbase)

theorem createRoom (sid : String) (d : Json)
    : Sound (fun _ => Memory.Settled) (createRoom sid d) { req := .message sid .create d } := by
  refine .bind <| .hitRateLimit fun limited => ?_
  split
  . exact .respondError ⟨rfl, rfl⟩
  refine .bind <| .sessionIdentity rfl (fun actor => .respondError ⟨rfl, rfl⟩) fun actor => ?_
  dsimp only
  split
  next roomId _ =>
    split
    . exact .respondError ⟨rfl, rfl⟩
    split
    . exact .respondError ⟨rfl, rfl⟩
    split
    . exact .respondError ⟨rfl, rfl⟩
    refine .bind <| .roomRecord fun existing => ?_
    split
    . exact .respondError ⟨rfl, rfl⟩
    refine .bind <| .createRoomIfAbsent sid rfl (fun result hresult => ?_) ?_
    . split
      . exact .respondError ⟨rfl, rfl⟩
      . exact .respondError ⟨rfl, rfl⟩
      . contradiction
    . refine .bind <| .attachRoomIcon (by simp [Memory.Makes, Request.op?, Request.concernsRooms,
      Op.onMessages]) rfl rfl fun room g' hfollows => ?_
      refine .bind <| .roomRecord fun stored => ?_
      have hsteady := (hfollows.steady ⟨rfl, rfl, by simp [Request.op?]⟩).read roomId stored
      refine .bind <| .respondToSender ⟨fun _ hban => ?_, fun roomId' _ hok => ?_⟩ hsteady.settled
      . simp [hfollows.req, Request.op?] at hban
      . rw [isOkFor_withRequestId] at hok
        rw [eq_of_isOkFor hok]
        exact hfollows.created
  next => exact .respondError ⟨rfl, rfl⟩

theorem deleteRoom {roomId : String} {post : Bool → Memory → Prop}
    (hop : g.req.op? = some .deleteRoom) (h : ∀ result base, post result { g with base }) : Sound post (deleteRoom roomId) g := by
  refine Prog.Spec.atom_iff.2 fun e s => ?_
  split
  . exact ⟨Keeps.refl s, h _ g.base⟩
  . exact ⟨⟨rfl, hop⟩, h _ none⟩

theorem emptyRoom {roomId : String} {post : List String → Memory → Prop}
    (hop : g.req.op? = some .deleteRoom) (h : ∀ result, post result g)
    : Sound post (emptyRoom roomId) g :=
  Prog.Spec.atom_iff.2 fun _ _ => ⟨⟨rfl, hop⟩, h _⟩

theorem deleteRoomOp (sid : String) (d : Json)
    : Sound (fun _ => Memory.Settled) (deleteRoomOp sid d)
        { req := .message sid .deleteRoom d } := by
  refine .communityRequest fun actor roomId room hkind => ?_
  refine .bind <| .look fun isServerAdmin => ?_
  split
  . exact .respondError ⟨rfl, rfl⟩
  refine .bind <| .removeIconFile <| .bind <| .deleteRoom rfl fun deleted base => ?_
  split
  . refine .bind <| .emptyRoom rfl fun members => .bind <| .broadcast ?_
    exact .respondOk (Memory.unbound_of_op _ rfl (by decide) (by decide)) ⟨rfl, rfl⟩
  . exact .respondError ⟨rfl, rfl⟩

end Existence

end Sound

end Lqxp
