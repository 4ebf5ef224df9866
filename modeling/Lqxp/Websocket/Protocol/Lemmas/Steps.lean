import Lqxp.Websocket.Protocol.Lemmas.Replies

/-!
This module contains the proofs that the pieces that the handlers share only make the steps that
`Transition` allows. In each of them the last premise is about the rest of the handler.
-/

namespace Lqxp

namespace Memory

@[simp]
theorem next_req (g : Memory) (l : Label) : (g.next l).req = g.req := by
  cases l with
  | wrote roomId record =>
    simp only [next]
    split <;> rfl
  | _ => rfl

/--
No check and no eviction is outstanding, and a run of a ban has written its ban into the record of the
room.
-/
structure Steady (roomId : String) (g : Memory) : Prop where
  entering : g.entering = none
  evicting : g.evicting = none
  banned : g.req.op? = some .ban → g.banned = some roomId

/--
The end of every run: no check and no eviction is outstanding.
-/
structure Settled (g : Memory) : Prop where
  entering : g.entering = none
  evicting : g.evicting = none

theorem Steady.settled {roomId : String} {g : Memory} (h : g.Steady roomId) : g.Settled :=
  ⟨h.entering, h.evicting⟩

theorem Settled.steady {g : Memory} (h : g.Settled) (hop : g.req.op? ≠ some .ban) (roomId : String)
    : g.Steady roomId :=
  ⟨h.entering, h.evicting, fun hban => absurd hban hop⟩

theorem Steady.read {roomId : String} {g : Memory} (h : g.Steady roomId) (roomId' : String)
    (result : Option RoomRecord) : (g.next (.read roomId' result)).Steady roomId :=
  ⟨by simp [next, h.entering], h.evicting, h.banned⟩

theorem Steady.wrote {roomId : String} {g : Memory} (h : g.Steady roomId) (record : RoomRecord)
    : (g.next (.wrote roomId record)).Steady roomId := by
  simp only [next]
  split
  next target htarget =>
    have hban : g.req.op? = some .ban := by
      unfold bansTarget at htarget
      split at htarget
      . assumption
      . simp at htarget
    exact ⟨h.entering, by simp [h.banned hban, h.evicting], fun _ => rfl⟩
  next => exact ⟨h.entering, h.evicting, h.banned⟩

theorem Steady.confirms {roomId : String} {g : Memory} (h : g.Steady roomId)
    (hcreate : g.req.op? ≠ some .create) (op : Nat) (fields : List (String × Json))
    (reqId : Option String)
    : g.Confirms (withRequestId
        (message op (("ok", .bool true) :: ("gameId", .str roomId) :: fields)) reqId) := by
  constructor
  . intro roomId' hban hok
    rw [isOkFor_withRequestId] at hok
    rw [h.banned hban, eq_of_isOkFor hok]
  . intro roomId' hop
    exact absurd hop hcreate

/--
What the refresh of a record leaves of the memory of a run.
-/
structure Follows (roomId : String) (g g' : Memory) : Prop where
  req : g'.req = g.req
  actor : g'.actor = g.actor
  target : g'.target = g.target
  created : g'.created = g.created
  steady : g.Steady roomId → g'.Steady roomId

theorem Follows.read (g : Memory) (roomId roomId' : String) (result : Option RoomRecord)
    : g.Follows roomId (g.next (.read roomId' result)) :=
  ⟨rfl, rfl, rfl, rfl, fun h => h.read roomId' result⟩

theorem Follows.wrote (g : Memory) (roomId : String) (record : RoomRecord)
    : g.Follows roomId (g.next (.wrote roomId record)) := by
  refine ⟨next_req _ _, ?_, ?_, ?_, fun h => h.wrote record⟩ <;>
    (simp only [next]; split <;> rfl)

theorem Follows.trans {roomId : String} {g g' g'' : Memory} (h : g.Follows roomId g')
    (h' : g'.Follows roomId g'') : g.Follows roomId g'' :=
  ⟨h'.req.trans h.req, h'.actor.trans h.actor, h'.target.trans h.target,
    h'.created.trans h.created, fun hsteady => h'.steady (h.steady hsteady)⟩

theorem bansTarget_eq {g : Memory} {target : String} {record : RoomRecord}
    (hop : g.req.op? = some .ban) (htarget : g.target = some target)
    (hbanned : (record.banned.lookup target).isSome) : g.bansTarget record = some target := by
  simp [bansTarget, hop, htarget, Option.filter_some, hbanned]

theorem next_ban {g : Memory} {target : String} {record : RoomRecord}
    (htarget : g.bansTarget record = some target) (hbanned : g.banned = none) (roomId : String)
    : g.next (.wrote roomId record)
        = { g with base := some (roomId, some record), banned := some roomId,
                   evicting := some (target, roomId) } := by
  simp [next, htarget, hbanned]

theorem next_wrote_base (g : Memory) (roomId : String) (record : RoomRecord)
    : (g.next (.wrote roomId record)).base = some (roomId, some record) := by
  simp only [next]
  split <;> rfl

theorem next_read_base {g : Memory} (h : g.created = none) (roomId : String)
    (result : Option RoomRecord) : (g.next (.read roomId result)).base = some (roomId, result) := by
  simp [next, h]

end Memory

/--
Run with the memory `g`, a piece of a handler only makes allowed steps and ends as `post` says.
-/
abbrev Sound (post : α → Memory → Prop) (p : Proto α) (g : Memory) : Prop :=
  Prog.Spec Memory.next Transition post p g

namespace Sound

variable {g : Memory} {post : α → Memory → Prop}

theorem bind {p : Proto β} {f : β → Proto α}
    (h : Sound (fun b g' => Sound post (f b) g') p g) : Sound post (p >>= f) g :=
  Prog.Spec.bind_iff.2 h

theorem pure {a : α} (h : post a g) : Sound post (pure a) g := h

section Atoms

theorem look {f : Env → AppState → α} (h : ∀ a, post a g) : Sound post (look f) g :=
  fun e s => ⟨Keeps.refl s, h (f e s)⟩

theorem nowMs {post : Nat → Memory → Prop} (h : ∀ now, post now { g with now := some now })
    : Sound post nowMs g :=
  fun e _ => ⟨⟨rfl, rfl⟩, h e.now⟩

theorem hitRateLimit {key : String} {limit windowMs : Nat} {post : Bool → Memory → Prop}
    (h : ∀ hit, post hit g) : Sound post (hitRateLimit key limit windowMs) g :=
  fun e s => ⟨⟨rfl, rfl, fun _ => rfl, rfl, fun _ => rfl⟩,
    h (rateLimitHit e.now key limit windowMs s.rateLimits).1⟩

theorem removeUploadedFile {fileId : String} {post : Unit → Memory → Prop} (h : post () g)
    : Sound post (removeUploadedFile fileId) g := by
  refine Prog.Spec.atom_iff.2 fun e s => ?_
  split
  . exact ⟨Keeps.refl s, h⟩
  . exact ⟨⟨rfl, rfl, fun _ => rfl, rfl, fun _ => rfl⟩, h⟩

theorem removeIconFile {icon : Option RoomIcon} {post : Unit → Memory → Prop} (h : post () g)
    : Sound post (removeIconFile icon) g := by
  cases icon with
  | some icon => exact .removeUploadedFile h
  | none => exact .pure h

theorem storeUploadedBytes {extension mimeType : String} {bytes : List UInt8}
    {post : Option StoredFile → Memory → Prop} (h : ∀ stored, post stored g)
    : Sound post (storeUploadedBytes extension bytes mimeType) g := by
  refine Prog.Spec.atom_iff.2 fun e s => ?_
  split
  . exact ⟨Keeps.refl s, h none⟩
  . exact ⟨⟨rfl, rfl, fun _ => rfl, rfl, fun _ => rfl⟩, h _⟩

theorem getPlayer {sid : String} {post : Option PlayerSession → Memory → Prop}
    (hsid : g.req.sid? = some sid) (hnone : post none g)
    (h : ∀ player, post (some player) { g with actor := some (player.userId, player.username) })
    : Sound post (getPlayer sid) g := by
  refine Prog.Spec.atom_iff.2 fun e s => ?_
  cases hplayer : s.players.lookup sid with
  | none => exact ⟨Keeps.refl s, hnone⟩
  | some player => exact ⟨⟨Keeps.refl s, sid, player, hsid, hplayer, rfl, rfl⟩, h player⟩

theorem respondToSender {sid : String} {payload : Json} {post : Unit → Memory → Prop}
    (hconfirms : g.Confirms payload) (h : post () g) : Sound post (respondToSender sid payload) g := by
  refine Prog.Spec.atom_iff.2 fun e s => ?_
  cases s.players.lookup sid with
  | none => exact ⟨Keeps.refl s, h⟩
  | some player => exact ⟨⟨rfl, hconfirms⟩, h⟩

theorem broadcastToRoom {gameId : String} {payload : Json} {post : Unit → Memory → Prop}
    (h : post () g) : Sound post (broadcastToRoom gameId payload) g :=
  fun _ s => ⟨Keeps.refl s, h⟩

theorem broadcast {recipients : List String} {payload : Json} {post : Unit → Memory → Prop}
    (h : post () g)
    : Sound post (.atom fun _ s => ((), .broadcast recipients payload, s)) g :=
  fun _ s => ⟨Keeps.refl s, h⟩

theorem respondError {sid text : String} {op : Nat} {reqId : Option String}
    {post : Bool → Memory → Prop} (h : post false g)
    : Sound post (respondError sid op text reqId) g :=
  .bind <| .respondToSender (g.confirms_error op text [] reqId rfl) h

theorem respondOk {sid : String} {op : Nat} {d : List (String × Json)} {reqId : Option String}
    {post : Bool → Memory → Prop} (hconfirms : g.Unbound) (h : post false g)
    : Sound post (respondOk sid op d reqId) g :=
  .bind <| .respondToSender (hconfirms.confirms _) h

end Atoms

section Database

theorem roomRecord {roomId : String} {post : Option RoomRecord → Memory → Prop}
    (h : ∀ result, post result (g.next (.read roomId result))) : Sound post (roomRecord roomId) g :=
  fun e s => ⟨⟨rfl, rfl⟩, h (e.readRoom s roomId)⟩

theorem setRoomRecord {roomId : String} (snapshot : Option RoomRecord) (edit : RoomEdit)
    {room : RoomRecord} {post : Bool → Memory → Prop} (hbase : g.base = some (roomId, snapshot))
    (hmakes : g.Makes edit)
    (hpermitted : edit.Permitted g.actorId (snapshot.getD (defaultRecord roomId)))
    (hroom : { room with roomId }
      = { edit.apply g.actorId (snapshot.getD (defaultRecord roomId)) with roomId })
    (hfail : post false g) (h : post true (g.next (.wrote roomId { room with roomId })))
    : Sound post (setRoomRecord roomId room) g := by
  refine Prog.Spec.atom_iff.2 fun e s => ?_
  cases hdb : e.dbFails with
  | true =>
    simp only [if_true]
    exact ⟨Keeps.refl s, hfail⟩
  | false =>
    simp only [Bool.false_eq_true, if_false]
    exact ⟨⟨rfl, snapshot, edit, hbase, hmakes, hpermitted, hroom⟩, h⟩

theorem syncRoomRecord {roomId : String} {post : Option RoomRecord → Memory → Prop}
    (hmakes : ∀ title members, g.Makes (.refresh title members)) (hcreated : g.created = none)
    (h : ∀ result g', g.Follows roomId g' →
      (∀ room, result = some room → g'.base = some (roomId, some { room with roomId })) →
      post result g')
    : Sound post (syncRoomRecord roomId) g := by
  refine .bind <| .look fun members => .bind <| .roomRecord fun previous => .bind ?_
  have hread := Memory.Follows.read g roomId roomId previous
  refine .setRoomRecord previous
    (.refresh (if Text.trim (previous.getD (defaultRecord roomId)).title = "" then roomId
      else (previous.getD (defaultRecord roomId)).title) members)
    (Memory.next_read_base hcreated roomId previous) (hmakes "" []) ?_ rfl ?_ ?_
  . by_cases hblank : Text.trim (previous.getD (defaultRecord roomId)).title = ""
    . exact .inr hblank
    . exact .inl (if_neg hblank)
  . exact .pure (h none _ hread fun room hroom => by simp at hroom)
  . refine .pure (h _ _ (hread.trans (.wrote _ roomId _)) ?_)
    rintro room ⟨rfl⟩
    exact Memory.next_wrote_base _ _ _

theorem setRoomIcon {roomId : String} {icon : RoomIcon} {post : Bool → Memory → Prop}
    (hmakes : g.Makes (.setIcon icon)) (hcreated : g.created = none)
    (h : ∀ result g', g.Follows roomId g' → post result g')
    : Sound post (setRoomIcon roomId icon) g := by
  refine .bind <| .roomRecord fun previous => ?_
  have hread := Memory.Follows.read g roomId roomId previous
  refine .setRoomRecord previous (.setIcon icon) (Memory.next_read_base hcreated roomId previous)
    hmakes trivial rfl ?_ ?_
  . exact h false _ hread
  . exact h true _ (hread.trans (.wrote _ roomId _))

theorem roomIcon {roomId : String} {post : Option RoomIcon → Memory → Prop}
    (h : ∀ result room, post result (g.next (.read roomId room))) : Sound post (roomIcon roomId) g :=
  .bind <| .roomRecord fun room => .pure (h (room.bind (·.icon)) room)

end Database

end Sound

end Lqxp
