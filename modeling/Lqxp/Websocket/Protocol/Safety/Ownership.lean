import Lqxp.Prog.Trace
import Lqxp.Websocket.Protocol.Safety.Membership
import Lqxp.Websocket.Protocol.Safety.Roles

/-!
This module contains how an account that is banned from a room can come to own it: a ban leaves the role of
the account in place, and a transfer looks at the role only.
-/

namespace Lqxp

/--
A request is about a room and is aimed at an account that is banned from it.
-/
def AppState.aimsAtBanned (s : AppState) (tr : List (Env × Label)) : Bool :=
  tr.any fun x => tr.any fun y =>
    match x.2, y.2 with
    | .read roomId _, .target userId => s.Bans roomId userId
    | _, _ => false

/--
A transfer is not aimed at an account that is banned from the room.
-/
def Request.transfersFairly (req : Request) (s : AppState) (tr : List (Env × Label)) : Bool :=
  req.op? ≠ some .transfer || !s.aimsAtBanned tr

/--
In all states that requests lead to when they are served one after the other, as `adm` says, no room is
owned by an account that is banned from it.
-/
def OwnersNeverBanned (adm : AppState → Request → List (Env × Label) → Prop) : Prop :=
  ∀ start log s roomId room owner,
    start.database = ∅ → Prog.Served Request.handle adm start log s →
    s.database.lookup roomId = some room → room.kind = .community → room.ownerId = some owner →
    room.banned.lookup owner = none

/--
The role table of a room is as it should be and its owner is not banned.
-/
structure FairlyOwned (room : RoomRecord) : Prop where
  table : RoleTable room
  owner (owner : String) : room.ownerId = some owner → room.banned.lookup owner = none

namespace FairlyOwned

variable {room : RoomRecord} {actor target name : String} {edit : RoomEdit}

theorem newRoom (d : Json) (roomId userId : String) : FairlyOwned (newRoom d roomId userId) :=
  ⟨.newRoom d roomId userId, fun _ _ => rfl⟩

theorem congr {room' : RoomRecord} (h : FairlyOwned room) (howner : room'.ownerId = room.ownerId)
    (hroles : room'.roles = room.roles) (hbanned : room'.banned = room.banned) : FairlyOwned room' := by
  refine ⟨h.table.congr howner hroles, fun owner hroom => ?_⟩
  rw [hbanned]
  exact h.owner owner (howner ▸ hroom)

theorem eq_of_canModerate (h : FairlyOwned room) {owner : String} {action : ModAction}
    (howner : room.ownerId = some owner)
    (hpower : canModerate room (roleInRoom room actor) (roleInRoom room owner) action)
    : actor = owner := by
  have hrole : roleInRoom room owner = .administrator := by rw [roleInRoom, if_pos howner]
  rw [hrole] at hpower
  by_cases hactor : room.ownerId = some actor
  . exact Option.some.inj (hactor.symm.trans howner)
  . obtain ⟨o, ho, hroles⟩ := h.table.owner
    obtain rfl : o = owner := Option.some.inj (ho.symm.trans howner)
    cases hactorRole : roleInRoom room actor with
    | administrator => exact (hroles actor).1 ((RoleTable.roleInRoom_eq_iff hactor (by simp)).1 hactorRole)
    | subAdministrator | moderator | member => simp [hactorRole, canModerate] at hpower

theorem ban (h : FairlyOwned room) (hpermitted : (RoomEdit.ban target name).Permitted actor room)
    : FairlyOwned ((RoomEdit.ban target name).apply actor room) := by
  refine ⟨h.table.apply hpermitted, fun owner howner => ?_⟩
  have hne : owner ≠ target := by
    rintro rfl
    exact hpermitted.2.1 (h.eq_of_canModerate howner hpermitted.2.2).symm
  rw [RoomEdit.apply, AssocMap.lookup_insert, if_neg hne]
  exact h.owner owner howner

theorem apply (h : FairlyOwned room) (hpermitted : edit.Permitted actor room)
    (hfair : ∀ target, edit = .transfer target → room.banned.lookup target = none)
    : FairlyOwned (edit.apply actor room) := by
  cases edit with
  | setRole target role => exact ⟨h.table.apply hpermitted, h.owner⟩
  | transfer target =>
    refine ⟨h.table.apply hpermitted, fun owner howner => ?_⟩
    obtain rfl : target = owner := Option.some.inj howner
    exact hfair target rfl
  | ban target name => exact h.ban hpermitted
  | unban target =>
    refine ⟨h.table.apply hpermitted, fun owner howner => ?_⟩
    rw [RoomEdit.apply, AssocMap.lookup_erase, h.owner owner howner, ite_self]
  | _ => exact h.congr rfl rfl rfl

end FairlyOwned

def FairlyOwnedRooms (s : AppState) : Prop := s.All fun room => room.kind = .community → FairlyOwned room

/--
What holds between the steps of a run with the trace `tr`: the run works on what is stored, and if it is a
transfer, it is aimed at nobody that the room has banned.
-/
structure TransfersFairly (tr : List (Env × Label)) (g : Memory) (s : AppState) : Prop where
  rooms : FairlyOwnedRooms s
  base (roomId : String) (room : RoomRecord)
    : g.base = some (roomId, some room) → s.database.lookup roomId = some room
  read (roomId : String) (result : Option RoomRecord)
    : g.req.op? = some .transfer → g.base = some (roomId, result) → ∃ e r, (e, .read roomId r) ∈ tr
  target (userId : String) : g.target = some userId → ∃ e, (e, .target userId) ∈ tr
  spared (roomId userId : String)
    : g.req.op? = some .transfer → (∃ e r, (e, .read roomId r) ∈ tr) →
      (∃ e, (e, .target userId) ∈ tr) → ¬ s.Bans roomId userId

namespace TransfersFairly

variable {tr : List (Env × Label)} {g : Memory} {e : Env} {s s' : AppState} {l : Label} {roomId userId : String}

theorem wrote {record : RoomRecord} (h : TransfersFairly tr g s)
    (hstep : Transition g e s (.wrote roomId record) s') (hkind : record.kind = .community)
    : FairlyOwned record := by
  obtain ⟨-, snapshot, edit, hbase, hmakes, hpermitted, rfl⟩ := hstep
  cases snapshot with
  | none => simp [RoomEdit.kind_apply, defaultRecord] at hkind
  | some room =>
    have hroom : room.kind = .community := by simpa [RoomEdit.kind_apply] using hkind
    have hstored := h.base roomId room hbase
    refine ((h.rooms roomId room hstored hroom).apply hpermitted fun target heq => ?_).congr rfl rfl rfl
    subst heq
    have hspared := h.spared roomId target hmakes.1 (h.read roomId _ hmakes.1 hbase) (h.target target hmakes.2)
    by_contra hbanned
    exact hspared ⟨room, hstored, by simpa [RoomRecord.bans, hroom, Option.isSome_iff_ne_none] using hbanned⟩

theorem rooms_step (h : TransfersFairly tr g s) (hstep : Transition g e s l s') : FairlyOwnedRooms s' := by
  intro roomId room hroom hkind
  by_cases hstores : l.stores = some roomId
  . cases l with
    | wrote roomId' record =>
      obtain rfl : roomId' = roomId := by simpa [Label.stores] using hstores
      obtain rfl : record = room := by simpa [hstep.1] using hroom
      exact h.wrote hstep hkind
    | created roomId' record =>
      obtain rfl : roomId' = roomId := by simpa [Label.stores] using hstores
      obtain rfl : record = room := by simpa [hstep.1] using hroom
      obtain ⟨-, -, sid, d, -, rfl⟩ := hstep
      exact .newRoom d roomId' g.actorId
    | erased roomId' =>
      obtain rfl : roomId' = roomId := by simpa [Label.stores] using hstores
      rw [hstep.1, AList.lookup_erase] at hroom
      contradiction
    | _ => simp [Label.stores] at hstores
  . rw [hstep.lookup_database hstores] at hroom
    exact h.rooms roomId room hroom hkind

theorem read_step (h : TransfersFairly tr g s) (hmem : (e, l) ∈ tr) (hstep : Transition g e s l s')
    (hop : g.req.op? = some .transfer) {result : Option RoomRecord}
    (hbase : (g.next l).base = some (roomId, result)) : ∃ e r, (e, .read roomId r) ∈ tr := by
  cases l with
  | read roomId' result' =>
    simp only [Memory.next] at hbase
    split at hbase
    . exact h.read roomId result hop hbase
    . obtain ⟨rfl, rfl⟩ : roomId' = roomId ∧ result' = result := by simpa using hbase
      exact ⟨e, result', hmem⟩
  | wrote roomId' record =>
    rw [Memory.next_wrote_base] at hbase
    obtain ⟨rfl, -⟩ : roomId' = roomId ∧ some record = result := by simpa using hbase
    obtain ⟨-, snapshot, edit, hbefore, -⟩ := hstep
    exact h.read roomId' snapshot hop hbefore
  | created roomId' record =>
    obtain ⟨-, -, sid, d, hreq, -⟩ := hstep
    simp [hreq, Request.op?] at hop
  | erased roomId' => simp [Memory.next] at hbase
  | _ => exact h.read roomId result hop hbase

theorem target_step (h : TransfersFairly tr g s) (hmem : (e, l) ∈ tr)
    (htarget : (g.next l).target = some userId) : ∃ e, (e, .target userId) ∈ tr := by
  cases l with
  | target userId' =>
    obtain rfl : userId' = userId := by simpa [Memory.next] using htarget
    exact ⟨e, hmem⟩
  | wrote roomId record =>
    rw [(Memory.Follows.wrote g roomId record).target] at htarget
    exact h.target userId htarget
  | _ => exact h.target userId htarget

theorem spared_step (h : TransfersFairly tr g s) (hstep : Transition g e s l s')
    (hop : g.req.op? = some .transfer) (hread : ∃ e r, (e, .read roomId r) ∈ tr)
    (htarget : ∃ e, (e, .target userId) ∈ tr) : ¬ s'.Bans roomId userId := by
  have hbefore := h.spared roomId userId hop hread htarget
  rintro ⟨room, hroom, hbans⟩
  by_cases hstores : l.stores = some roomId
  . cases l with
    | wrote roomId' record =>
      obtain rfl : roomId' = roomId := by simpa [Label.stores] using hstores
      obtain rfl : record = room := by simpa [hstep.1] using hroom
      rcases bans_of_wrote hstep h.base hbans with hbanned | ⟨hban, -⟩
      . exact hbefore hbanned
      . rw [hop] at hban
        contradiction
    | created roomId' record =>
      obtain ⟨-, -, sid, d, hreq, -⟩ := hstep
      simp [hreq, Request.op?] at hop
    | erased roomId' =>
      rw [hstep.2] at hop
      contradiction
    | _ => simp [Label.stores] at hstores
  . rw [hstep.lookup_database hstores] at hroom
    exact hbefore ⟨room, hroom, hbans⟩

theorem step (h : TransfersFairly tr g s) (hmem : (e, l) ∈ tr) (hstep : Transition g e s l s')
    : TransfersFairly tr (g.next l) s' where
  rooms := h.rooms_step hstep
  base := base_step hstep h.base
  read roomId result hop hbase := h.read_step hmem hstep (by simpa using hop) hbase
  target userId htarget := h.target_step hmem htarget
  spared roomId userId hop := h.spared_step hstep (by simpa using hop)

theorem start {req : Request} (hrooms : FairlyOwnedRooms s) (hfair : req.transfersFairly s tr)
    : TransfersFairly tr (server.start req) s where
  rooms := hrooms
  base := by simp [server]
  read := by simp [server]
  target := by simp [server]
  spared roomId userId hop hread htarget hbans := by
    obtain ⟨e, r, hread⟩ := hread
    obtain ⟨e', htarget⟩ := htarget
    have haims : s.aimsAtBanned tr := by
      refine List.any_eq_true.2 ⟨_, hread, List.any_eq_true.2 ⟨_, htarget, ?_⟩⟩
      simpa using hbans
    have hop' : req.op? = some .transfer := hop
    simp [Request.transfersFairly, haims, hop'] at hfair

end TransfersFairly

theorem fairlyOwnedRooms_of_trace {req : Request} {tr : List (Env × Label)} {s s' : AppState}
    (run : Prog.Trace (Request.handle req) s tr () s') (hfair : req.transfersFairly s tr)
    (hrooms : FairlyOwnedRooms s) : FairlyOwnedRooms s' := by
  obtain ⟨g, -, hend⟩ := run.of_spec (TransfersFairly tr)
    (fun g e s l s' hmem hstep h => h.step hmem hstep) (Sound.handle req)
    (.of_forall fun x hx => hx) (.start hrooms hfair)
  exact hend.rooms

theorem ownersNeverBanned (start : AppState) (log : List (Request × List (Env × Label))) (s : AppState)
    (roomId : String) (room : RoomRecord) (owner : String) (hstart : start.database = ∅)
    (hserved : Prog.Served Request.handle (fun s req tr => req.transfersFairly s tr) start log s)
    (hroom : s.database.lookup roomId = some room) (hkind : room.kind = .community)
    (howner : room.ownerId = some owner) : room.banned.lookup owner = none := by
  have hrooms : FairlyOwnedRooms s := by
    refine hserved.invariant FairlyOwnedRooms
      (fun _ _ _ _ run hfair => fairlyOwnedRooms_of_trace run hfair) fun roomId room hroom => ?_
    simp [hstart] at hroom
  exact (hrooms roomId room hroom hkind).owner owner howner

section Transfer

def foundersServer : AppState where
  accounts :=
    { users := ((∅ : AssocMap String StoredUser).insert "o" { id := "o", username := "olga" }).insert "m"
        { id := "m", username := "mona" }
      sessions := ((∅ : AssocMap String SessionRow).insert "tokenO"
        { userId := "o", expiresAt := 10 }).insert "tokenM" { userId := "m", expiresAt := 10 } }

/--
The first account creates a room and makes the other one a moderator there.
-/
def foundCommunity : List (Request × Env) :=
  [(.connect "a", .calm), (.message "a" .identify (.obj [("token", .str "tokenO")]), .calm),
    (.message "a" .create (.obj [("roomId", .str "community")]), .calm),
    (.message "a" .join (.obj [("gameId", .str "community")]), .calm),
    (.message "a" .memberRole (.obj [("targetUserId", .str "m"), ("role", .str "moderator")]), .calm)]

def banModerator : Request × Env := (.message "a" .ban (.obj [("targetUserId", .str "m")]), .calm)

def transferToModerator : Request × Env :=
  (.message "a" .transfer (.obj [("targetUserId", .str "m")]), .calm)

/--
A transfer to an account that is not banned.
-/
theorem ownersNeverBanned_transferToModerator
    : ∃ log s,
        Prog.Served Request.handle (fun s req tr => req.transfersFairly s tr) foundersServer log s
          ∧ ∃ room, s.database.lookup "community" = some room ∧ room.ownerId = some "m"
              ∧ room.banned.lookup "m" = none := by
  have hplay : ((Prog.Served.playAll Request.handle (fun s req tr => req.transfersFairly s tr)
      (foundCommunity ++ [transferToModerator]) foundersServer).map (·.2)).bind (fun s =>
      (s.database.lookup "community").map fun room => (room.ownerId, room.kind))
        = some (some "m", .community) := by decide +kernel
  obtain ⟨log, s, hserved, hlookup⟩ := Prog.Served.exists_of_playAll hplay
  obtain ⟨room, hroom, hfields⟩ := Option.map_eq_some_iff.1 hlookup
  obtain ⟨howner, hkind⟩ := Prod.mk.inj hfields
  exact ⟨log, s, hserved, room, hroom, howner,
    ownersNeverBanned foundersServer log s "community" room "m" rfl hserved hroom hkind howner⟩

/--
A moderator is banned and made the owner.
-/
theorem not_ownersNeverBanned : ¬ OwnersNeverBanned fun _ _ _ => True := by
  intro h
  have hplay : ((Prog.Served.playAll Request.handle (fun _ _ _ => true)
      (foundCommunity ++ [banModerator, transferToModerator]) foundersServer).map (·.2)).bind (fun s =>
      (s.database.lookup "community").map fun room =>
        (room.ownerId, room.kind, (room.banned.lookup "m").isSome))
        = some (some "m", .community, true) := by decide +kernel
  obtain ⟨log, s, hserved, hlookup⟩ := Prog.Served.exists_of_playAll hplay
  obtain ⟨room, hroom, hfields⟩ := Option.map_eq_some_iff.1 hlookup
  simp only [Prod.mk.injEq] at hfields
  obtain ⟨howner, hkind, hbanned⟩ := hfields
  have hnone := h foundersServer log s "community" room "m" rfl (hserved.mono fun _ _ _ _ => trivial)
    hroom hkind howner
  rw [hnone] at hbanned
  exact absurd hbanned Bool.false_ne_true

end Transfer

end Lqxp
