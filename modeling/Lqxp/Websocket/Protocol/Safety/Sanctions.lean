import Lqxp.Prog.Emits
import Lqxp.Prog.Trace
import Lqxp.Websocket.Protocol.Safety.Membership

/-!
This module contains who can lift the sanctions of an account in a room: the account itself, by an unmute or an
unban that its role allows, and by any request that writes the record of the room after it has failed to read
it.
-/

namespace Lqxp

/--
The sanctions of an account in a room are not weaker than before.
-/
structure SanctionsKept (userId : String) (room room' : RoomRecord) : Prop where
  banned : (room.banned.lookup userId).isSome → (room'.banned.lookup userId).isSome
  timeout (expiry : Nat) : room.timeouts.lookup userId = some expiry →
    ∃ expiry', room'.timeouts.lookup userId = some expiry' ∧ expiry ≤ expiry'

/--
A write would lift a sanction that the account has in the given record: the last read of the record has failed,
or the request is an unban or an unmute that is aimed at the account itself.
-/
def Memory.liftsOwn (g : Memory) (userId : String) (room : RoomRecord) : Bool :=
  let banned := (room.banned.lookup userId).isSome
  let muted := (room.timeouts.lookup userId).isSome
  (g.base.any (·.2.isNone) && (banned || muted))
    || (g.target = some userId
      && ((g.req.op? = some .unban && banned) || (g.req.op? = some .unmute && muted)))

/--
A step of a request of the account does not lift a sanction of the account.
-/
def Memory.keepsOwn (g : Memory) (userId roomId : String) (room : RoomRecord) : Label → Bool
  | .wrote roomId' _ => roomId' ≠ roomId || !g.liftsOwn userId room
  | _ => true

theorem Memory.liftsOwn_iff {g : Memory} {userId : String} {room : RoomRecord}
    : g.liftsOwn userId room
        ↔ (g.base.any (·.2.isNone)
            ∧ ((room.banned.lookup userId).isSome ∨ (room.timeouts.lookup userId).isSome))
          ∨ (g.target = some userId
            ∧ (g.req.op? = some .unban ∧ (room.banned.lookup userId).isSome
              ∨ g.req.op? = some .unmute ∧ (room.timeouts.lookup userId).isSome)) := by
  simp only [liftsOwn, Bool.or_eq_true, Bool.and_eq_true, decide_eq_true_eq]

section Writes

/--
What the writes of single operations do beyond what every write does.
-/
def Memory.Sanctions (g : Memory) (record : RoomRecord) : Prop :=
  match g.req.op? with
  | some .timeout => g.actor.isSome
  | some .unban => ∀ target, g.target = some target → record.banned.lookup target = none
  | some .unmute => ∀ target, g.target = some target → record.timeouts.lookup target = none
  | some .deleteRoom => False
  | _ => True

def Memory.sanctionsStep (g : Memory) (l : Label) : Prop :=
  ∀ roomId record, l = .wrote roomId record → g.Sanctions record

def Label.isWrite : Label → Bool
  | .wrote .. => true
  | _ => false

theorem Memory.sanctionsStep_of_not_isWrite {g : Memory} {l : Label} (h : l.isWrite = false)
    : g.sanctionsStep l := by
  rintro roomId record rfl
  contradiction

/--
A piece of a handler that writes no record.
-/
abbrev Writeless (p : Proto α) : Prop := p.Emits fun l => l.isWrite = false

namespace Writeless

theorem look (f : Env → AppState → α) : Writeless (look f) := .atom fun _ _ => rfl

theorem hitRateLimit (key : String) (limit windowMs : Nat) : Writeless (hitRateLimit key limit windowMs) :=
  .atom fun _ _ => rfl

theorem roomRecord (roomId : String) : Writeless (roomRecord roomId) := .atom fun _ _ => rfl

theorem removeIconFile (icon : Option RoomIcon) : Writeless (removeIconFile icon) := by
  cases icon with
  | none => exact Prog.Emits.pure ()
  | some icon =>
    refine .atom fun e s => ?_
    split
    . rfl
    . rfl

theorem bind {p : Proto α} {f : α → Proto β} (hp : Writeless p) (hf : ∀ a, Writeless (f a))
    : Writeless (p >>= f) :=
  Prog.Emits.bind hp hf

theorem sessionIdentity (sid : String) : Writeless (sessionIdentity sid) := by
  refine .bind (.atom fun e s => ?_) fun player => ?_
  . split
    . rfl
    . rfl
  . split
    . split
      . exact .pure _
      . exact .pure _
    . exact .pure _

theorem respondToSender (sid : String) (payload : Json) : Writeless (respondToSender sid payload) := by
  refine .atom fun e s => ?_
  split
  . rfl
  . rfl

theorem respondError (sid : String) (op : Nat) (text : String) (reqId : Option String)
    : Writeless (respondError sid op text reqId) :=
  .bind (respondToSender _ _) fun _ => .pure _

theorem respondOk (sid : String) (op : Nat) (d : List (String × Json)) (reqId : Option String)
    : Writeless (respondOk sid op d reqId) :=
  .bind (respondToSender _ _) fun _ => .pure _

theorem resolveTarget (d : Json) : Writeless (resolveTarget d) := by
  refine .atom fun e s => ?_
  split
  . rfl
  . split
    . split
      . rfl
      . rfl
    . rfl

theorem announceRoom (sid : String) (op : Nat) (roomId : String) (room : RoomRecord) (reqId : Option String)
    : Writeless (announceRoom sid op roomId room reqId) :=
  .bind (.atom fun _ _ => rfl) fun _ => .respondOk _ _ _ _

end Writeless

/--
Run with the memory `g`, a piece of a handler writes as its operation does.
-/
abbrev Sanctioning (post : α → Memory → Prop) (p : Proto α) (g : Memory) : Prop :=
  Prog.Spec Memory.next (fun g _ _ l _ => g.sanctionsStep l) post p g

namespace Sanctioning

variable {g : Memory} {post : α → Memory → Prop} {sid : String} {d : Json} {op : Op} {code limit windowMs : Nat}
  {key : String}

theorem bind {p : Proto β} {f : β → Proto α} (h : Sanctioning (fun b g' => Sanctioning post (f b) g') p g)
    : Sanctioning post (p >>= f) g :=
  Prog.Spec.bind_iff.2 h

theorem quiet {p : Proto α} (hw : Writeless p) (h : Sound post p g) : Sanctioning post p g := by
  induction p generalizing g with
  | done a => exact h
  | step act rest ih =>
    intro e s
    obtain ⟨hlabel, hrest⟩ := hw e s
    obtain ⟨-, hsound⟩ := h e s
    exact ⟨Memory.sanctionsStep_of_not_isWrite hlabel, ih e s hrest hsound⟩

theorem last {p : Proto α} (hw : Writeless p) : Sanctioning (fun _ _ => True) p g := by
  induction p generalizing g with
  | done a => trivial
  | step act rest ih =>
    intro e s
    obtain ⟨hlabel, hrest⟩ := hw e s
    exact ⟨Memory.sanctionsStep_of_not_isWrite hlabel, ih e s hrest⟩

theorem communityRequest {notCommunity : String} {body : String × String → String → RoomRecord → Proto Bool}
    (h : ∀ actor roomId room,
      Sanctioning (fun _ _ => True) (body actor roomId room) (Sound.working (.message sid op d) actor roomId room))
    : Sanctioning (fun _ _ => True) (communityRequest code key limit windowMs notCommunity sid d body)
        { req := .message sid op d } := by
  have herror (g : Memory) (text : String)
      : Sanctioning (fun _ _ => True) (Lqxp.respondError sid code text (requestId d)) g :=
    last (.respondError _ _ _ _)
  refine .bind <| .quiet (.hitRateLimit _ _ _) <| .hitRateLimit fun limited => ?_
  split
  . exact herror _ _
  refine .bind <| .quiet (.sessionIdentity _) <| .sessionIdentity rfl (fun actor => herror _ _) fun actor => ?_
  refine .bind <| .quiet (.look _) <| .look fun resolved => ?_
  split
  . exact herror _ _
  refine .bind <| .quiet (.roomRecord _) <| .roomRecord fun result => ?_
  split
  . split
    . exact herror _ _
    . exact h _ _ _
  . exact herror _ _

theorem withTarget {body : String → String → Proto Bool} (hevicting : g.evicting = none)
    (h : ∀ targetId targetName,
      Sanctioning (fun _ _ => True) (body targetId targetName) (g.next (.target targetId)))
    : Sanctioning (fun _ _ => True) (withTarget sid code d body) g :=
  .bind <| .quiet (.resolveTarget _) <| .resolveTarget hevicting
    (fun _ => last (.respondError _ _ _ _)) h

theorem moderate {action : ModAction} {actorId : String} {room : RoomRecord} {notSelf : Bool}
    {notAllowed : String} {body : String → String → Proto Bool} (hevicting : g.evicting = none)
    (h : ∀ targetId targetName,
      Sanctioning (fun _ _ => True) (body targetId targetName) (g.next (.target targetId)))
    : Sanctioning (fun _ _ => True) (moderate sid code d action actorId room notSelf notAllowed body) g := by
  refine withTarget hevicting fun targetId targetName => ?_
  split
  . exact last (.respondError _ _ _ _)
  split
  . exact last (.respondError _ _ _ _)
  . exact h targetId targetName

theorem saveRoom {failure roomId : String} {room : RoomRecord} {reqId : Option String}
    (h : g.Sanctions { room with roomId })
    : Sanctioning (fun _ _ => True) (saveRoom sid code failure roomId room reqId) g := by
  refine .bind <| Prog.Spec.atom_iff.2 fun e s => ?_
  cases e.dbFails with
  | true => exact ⟨Memory.sanctionsStep_of_not_isWrite rfl, last (.respondError _ _ _ _)⟩
  | false =>
    refine ⟨?_, last (.bind (.roomRecord _) fun _ => .announceRoom _ _ _ _ _)⟩
    rintro roomId' record ⟨⟩
    exact h

theorem timeoutMember (sid : String) (d : Json)
    : Sanctioning (fun _ _ => True) (timeoutMember sid d) { req := .message sid .timeout d } := by
  refine communityRequest fun actor roomId room => moderate rfl fun targetId targetName => ?_
  exact .bind <| .quiet (.atom fun _ _ => rfl) <| .nowMs fun now => saveRoom rfl

theorem unbanMember (sid : String) (d : Json)
    : Sanctioning (fun _ _ => True) (unbanMember sid d) { req := .message sid .unban d } := by
  refine communityRequest fun actor roomId room => ?_
  split
  . exact last (.respondError _ _ _ _)
  . refine withTarget rfl fun targetId targetName => saveRoom ?_
    intro target htarget
    obtain rfl : targetId = target := Option.some.inj htarget
    exact AList.lookup_erase _ _

theorem unmuteMember (sid : String) (d : Json)
    : Sanctioning (fun _ _ => True) (unmuteMember sid d) { req := .message sid .unmute d } := by
  refine communityRequest fun actor roomId room => moderate rfl fun targetId targetName => saveRoom ?_
  intro target htarget
  obtain rfl : targetId = target := Option.some.inj htarget
  exact AList.lookup_erase _ _

theorem deleteRoomOp (sid : String) (d : Json)
    : Sanctioning (fun _ _ => True) (deleteRoomOp sid d) { req := .message sid .deleteRoom d } := by
  refine communityRequest fun actor roomId room => last ?_
  refine .bind (.look _) fun isServerAdmin => ?_
  split
  . exact .respondError _ _ _ _
  refine .bind (.removeIconFile _) fun _ => .bind (.atom fun e s => ?_) fun deleted => ?_
  . split
    . rfl
    . rfl
  . split
    . exact .bind (.atom fun _ _ => rfl) fun _ => .bind (.atom fun _ _ => rfl) fun _ => .respondOk _ _ _ _
    . exact .respondError _ _ _ _

theorem handle (req : Request) : Sanctioning (fun _ _ => True) (server.handle req) (server.start req) := by
  have hother (hop : req.op? ∉ [some .timeout, some .unban, some .unmute, some .deleteRoom])
      : Sanctioning (fun _ _ => True) (server.handle req) (server.start req) := by
    refine .of_invariant (I := fun g => g.req.op? ∉ [some .timeout, some .unban, some .unmute, some .deleteRoom])
      (fun g l h => by simpa using h) (fun g e s l s' h => ?_) _ hop
    rintro roomId record rfl
    unfold Memory.Sanctions
    split <;> simp_all
  cases req with
  | message sid op d =>
    cases op with
    | timeout => exact .bind <| (timeoutMember sid d).mono fun _ _ _ => trivial
    | unban => exact .bind <| (unbanMember sid d).mono fun _ _ _ => trivial
    | unmute => exact .bind <| (unmuteMember sid d).mono fun _ _ _ => trivial
    | deleteRoom => exact .bind <| (deleteRoomOp sid d).mono fun _ _ _ => trivial
    | _ => exact hother (by simp [Request.op?])
  | _ => exact hother (by simp [Request.op?])

end Sanctioning

end Writes

section Edits

variable {userId actor : String} {room room' : RoomRecord} {edit : RoomEdit}

theorem SanctionsKept.refl (userId : String) (room : RoomRecord) : SanctionsKept userId room room :=
  ⟨id, fun expiry hexpiry => ⟨expiry, hexpiry, le_rfl⟩⟩

theorem SanctionsKept.of_none (hbanned : room.banned.lookup userId = none)
    (htimeout : room.timeouts.lookup userId = none) : SanctionsKept userId room room' :=
  ⟨by simp [hbanned], by simp [htimeout]⟩

theorem SanctionsKept.apply (h : SanctionsKept userId room room')
    (hunban : edit = .unban userId → room.banned.lookup userId = none)
    (hunmute : edit = .unmute userId → room.timeouts.lookup userId = none)
    (htimeout : ∀ expiry, edit ≠ .timeout userId expiry)
    : SanctionsKept userId room (edit.apply actor room') := by
  cases edit with
  | ban target name =>
    refine ⟨fun hbanned => ?_, h.timeout⟩
    rw [RoomEdit.apply, AssocMap.lookup_insert]
    split
    . rfl
    . exact h.banned hbanned
  | unban target =>
    refine ⟨fun hbanned => ?_, h.timeout⟩
    have hne : userId ≠ target := by
      rintro rfl
      simp [hunban rfl] at hbanned
    rw [RoomEdit.apply, AssocMap.lookup_erase, if_neg hne]
    exact h.banned hbanned
  | timeout target expiry =>
    have hne : userId ≠ target := by
      rintro rfl
      exact htimeout expiry rfl
    refine ⟨h.banned, fun expiry' hexpiry => ?_⟩
    rw [RoomEdit.apply, AssocMap.lookup_insert, if_neg hne]
    exact h.timeout expiry' hexpiry
  | unmute target =>
    refine ⟨h.banned, fun expiry hexpiry => ?_⟩
    have hne : userId ≠ target := by
      rintro rfl
      simp [hunmute rfl] at hexpiry
    rw [RoomEdit.apply, AssocMap.lookup_erase, if_neg hne]
    exact h.timeout expiry hexpiry
  | _ => exact ⟨h.banned, h.timeout⟩

theorem RoomEdit.apply_classic (hpermitted : edit.Permitted actor room) (hkind : room.kind = .classic)
    : (edit.apply actor room).banned = room.banned ∧ (edit.apply actor room).timeouts = room.timeouts
        ∧ (edit.apply actor room).kind = .classic := by
  cases edit with
  | refresh | setIcon | setTitle => exact ⟨rfl, rfl, hkind⟩
  | setRole | transfer | ban | unban | timeout | unmute | setDescription | setChatLock
  | setModeratorPermissions | setCallsEnabled => simp [Permitted, hkind] at hpermitted

end Edits

variable {userId roomId sid : String} {room : RoomRecord} {g : Memory} {e : Env} {s s' : AppState} {l : Label}

section Kept

/--
What holds between the steps of a request of an account that keep its sanctions in a room.
-/
structure OwnSanctions (userId roomId sid : String) (room : RoomRecord) (g : Memory) (s : AppState) : Prop where
  sender : g.req.sid? = some sid
  base (roomId : String) (room : RoomRecord)
    : g.base = some (roomId, some room) → s.database.lookup roomId = some room
  session (player : PlayerSession)
    : g.req.op? = some .timeout → s.players.lookup sid = some player → player.userId = userId
  actor (actor : String × String) : g.req.op? = some .timeout → g.actor = some actor → actor.1 = userId
  stored : g.req.op? ≠ some .deleteRoom → (s.database.lookup roomId).isSome
  kept (room' : RoomRecord) : s.database.lookup roomId = some room' → SanctionsKept userId room room'

namespace OwnSanctions

theorem wrote {record : RoomRecord} (h : OwnSanctions userId roomId sid room g s)
    (hkeeps : ¬ g.liftsOwn userId room) (hwrites : g.Sanctions record)
    (hstep : Transition g e s (.wrote roomId record) s') : SanctionsKept userId room record := by
  obtain ⟨-, snapshot, edit, hbase, hmakes, hpermitted, rfl⟩ := hstep
  rw [Memory.liftsOwn_iff] at hkeeps
  cases snapshot with
  | none =>
    have hnone : ¬ ((room.banned.lookup userId).isSome ∨ (room.timeouts.lookup userId).isSome) :=
      fun hsome => hkeeps (.inl ⟨by simp [hbase], hsome⟩)
    exact .of_none (by simpa using fun h => hnone (.inl h)) (by simpa using fun h => hnone (.inr h))
  | some room' =>
    have hkept := h.kept room' (h.base roomId room' hbase)
    have happly : SanctionsKept userId room (edit.apply g.actorId room') := by
      refine hkept.apply ?_ ?_ ?_
      . rintro rfl
        by_contra hbanned
        exact hkeeps (.inr ⟨hmakes.2, .inl ⟨hmakes.1, Option.isSome_iff_ne_none.2 hbanned⟩⟩)
      . rintro rfl
        by_contra hmuted
        exact hkeeps (.inr ⟨hmakes.2, .inr ⟨hmakes.1, Option.isSome_iff_ne_none.2 hmuted⟩⟩)
      . rintro expiry rfl
        have hop : g.req.op? = some .timeout := hmakes.1
        simp only [Memory.Sanctions, hop] at hwrites
        obtain ⟨actor, hactor⟩ := Option.isSome_iff_exists.1 hwrites
        refine hpermitted.2.1 ?_
        rw [Memory.actorId, hactor, Option.map_some, Option.getD_some, h.actor actor hop hactor]
    exact ⟨happly.banned, happly.timeout⟩

theorem kept_step (h : OwnSanctions userId roomId sid room g s) (hkeeps : g.keepsOwn userId roomId room l)
    (hwrites : g.sanctionsStep l) (hstep : Transition g e s l s') (room' : RoomRecord)
    (hroom : s'.database.lookup roomId = some room') : SanctionsKept userId room room' := by
  by_cases hstores : l.stores = some roomId
  . cases l with
    | wrote roomId' record =>
      obtain rfl : roomId' = roomId := by simpa [Label.stores] using hstores
      obtain rfl : record = room' := by simpa [hstep.1] using hroom
      exact h.wrote (by simpa [Memory.keepsOwn] using hkeeps) (hwrites _ _ rfl) hstep
    | created roomId' record =>
      obtain rfl : roomId' = roomId := by simpa [Label.stores] using hstores
      obtain ⟨-, hnone, sid', d, hreq, -⟩ := hstep
      have hstored := h.stored (by simp [hreq, Request.op?])
      simp [hnone] at hstored
    | erased roomId' =>
      obtain rfl : roomId' = roomId := by simpa [Label.stores] using hstores
      rw [hstep.1, AList.lookup_erase] at hroom
      contradiction
    | _ => simp [Label.stores] at hstores
  . rw [hstep.lookup_database hstores] at hroom
    exact h.kept room' hroom

theorem session_step (h : OwnSanctions userId roomId sid room g s) (hstep : Transition g e s l s')
    (hop : g.req.op? = some .timeout) {player' : PlayerSession}
    (hplayer' : s'.players.lookup sid = some player') : player'.userId = userId := by
  rcases hstep.session hplayer' with ⟨player, hplayer, -, huser, -⟩ | ⟨rfl, -⟩ | ⟨rfl, -⟩
  . rw [← huser]
    exact h.session player hop hplayer
  . have hconnect : g.req = .connect sid := hstep.2
    simp [hconnect, Request.op?] at hop
  . have hidentify : g.req.op? = some .identify := hstep.1
    rw [hidentify] at hop
    contradiction

theorem actor_step (h : OwnSanctions userId roomId sid room g s) (hstep : Transition g e s l s')
    (hop : g.req.op? = some .timeout) {actor : String × String} (hactor : (g.next l).actor = some actor)
    : actor.1 = userId := by
  cases l with
  | actor userId' username =>
    obtain ⟨-, sid', player, hsid, hplayer, rfl, -⟩ := hstep
    obtain rfl : sid = sid' := Option.some.inj (h.sender.symm.trans hsid)
    obtain rfl : (player.userId, username) = actor := by simpa [Memory.next] using hactor
    exact h.session player hop hplayer
  | wrote roomId' record =>
    rw [(Memory.Follows.wrote g roomId' record).actor] at hactor
    exact h.actor actor hop hactor
  | _ => exact h.actor actor hop hactor

theorem stored_step (h : OwnSanctions userId roomId sid room g s) (hstep : Transition g e s l s')
    (hop : g.req.op? ≠ some .deleteRoom) : (s'.database.lookup roomId).isSome := by
  obtain ⟨room', hroom'⟩ := Option.isSome_iff_exists.1 (h.stored hop)
  have hstored : Stored (fun _ => True) roomId s' := by
    refine hstep.stored ⟨room', hroom', trivial⟩ (fun _ _ => trivial) ?_
    rintro rfl
    exact hop hstep.2
  obtain ⟨room'', hroom'', -⟩ := hstored
  exact Option.isSome_of_eq_some hroom''

theorem step (h : OwnSanctions userId roomId sid room g s) (hkeeps : g.keepsOwn userId roomId room l)
    (hwrites : g.sanctionsStep l) (hstep : Transition g e s l s')
    : OwnSanctions userId roomId sid room (g.next l) s' where
  sender := by simpa using h.sender
  base := base_step hstep h.base
  session player hop hplayer := h.session_step hstep (by simpa using hop) hplayer
  actor actor hop hactor := h.actor_step hstep (by simpa using hop) hactor
  stored hop := h.stored_step hstep (by simpa using hop)
  kept := h.kept_step hkeeps hwrites hstep

end OwnSanctions

end Kept

section Lost

/--
A sanction of the account is gone from the record, and the request of the memory cannot bring it back.
-/
def Memory.Lifted (g : Memory) (userId : String) (room room' : RoomRecord) : Prop :=
  (g.req.op? = some .unban ∧ (room.banned.lookup userId).isSome ∧ room'.banned.lookup userId = none)
    ∨ (g.req.op? = some .unmute ∧ (room.timeouts.lookup userId).isSome ∧ room'.timeouts.lookup userId = none)
    ∨ (room'.kind = .classic
        ∧ ((room.banned.lookup userId).isSome ∨ (room.timeouts.lookup userId).isSome)
        ∧ room'.banned.lookup userId = none ∧ room'.timeouts.lookup userId = none)

theorem Memory.Lifted.not_kept {room' : RoomRecord} (h : g.Lifted userId room room')
    : ¬ SanctionsKept userId room room' := by
  intro hkept
  have hbanned (hsome : (room.banned.lookup userId).isSome) (hnone : room'.banned.lookup userId = none) : False := by
    have := hkept.banned hsome
    simp [hnone] at this
  have htimeout (hsome : (room.timeouts.lookup userId).isSome) (hnone : room'.timeouts.lookup userId = none)
      : False := by
    obtain ⟨expiry, hexpiry⟩ := Option.isSome_iff_exists.1 hsome
    obtain ⟨expiry', hexpiry', -⟩ := hkept.timeout expiry hexpiry
    simp [hnone] at hexpiry'
  rcases h with ⟨-, hsome, hnone⟩ | ⟨-, hsome, hnone⟩ | ⟨-, hsome | hsome, hnone, hnone'⟩
  . exact hbanned hsome hnone
  . exact htimeout hsome hnone
  . exact hbanned hsome hnone
  . exact htimeout hsome hnone'

theorem RoomEdit.apply_defaultRecord {edit : RoomEdit} {actor : String}
    (hpermitted : edit.Permitted actor (defaultRecord roomId))
    : (edit.apply actor (defaultRecord roomId)).kind = .classic
        ∧ (edit.apply actor (defaultRecord roomId)).banned.lookup userId = none
        ∧ (edit.apply actor (defaultRecord roomId)).timeouts.lookup userId = none := by
  obtain ⟨hbanned, htimeouts, hkind⟩ := RoomEdit.apply_classic hpermitted rfl
  refine ⟨hkind, ?_, ?_⟩
  . rw [hbanned]
    rfl
  . rw [htimeouts]
    rfl

theorem Memory.Lifted.wrote {room' record : RoomRecord} (h : g.Lifted userId room room')
    (hbase : ∀ roomId room, g.base = some (roomId, some room) → s.database.lookup roomId = some room)
    (hstored : s.database.lookup roomId = some room')
    (hstep : Transition g e s (.wrote roomId record) s') : g.Lifted userId room record := by
  obtain ⟨-, snapshot, edit, hsnapshot, hmakes, hpermitted, rfl⟩ := hstep
  cases snapshot with
  | none =>
    obtain ⟨hkind, hbanned, htimeout⟩ := RoomEdit.apply_defaultRecord hpermitted
    refine .inr (.inr ⟨hkind, ?_, hbanned, htimeout⟩)
    rcases h with ⟨-, hsome, -⟩ | ⟨-, hsome, -⟩ | ⟨-, hsome, -⟩
    . exact .inl hsome
    . exact .inr hsome
    . exact hsome
  | some room'' =>
    obtain rfl : room'' = room' := Option.some.inj ((hbase roomId room'' hsnapshot).symm.trans hstored)
    rcases h with ⟨hop, hsome, hnone⟩ | ⟨hop, hsome, hnone⟩ | ⟨hkind, hsome, hnone, hnone'⟩
    . refine .inl ⟨hop, hsome, ?_⟩
      cases edit with
      | unban target =>
        rw [Option.getD_some, RoomEdit.apply, AssocMap.lookup_erase, hnone, ite_self]
      | ban target name => simp [Memory.Makes, hop] at hmakes
      | _ => exact hnone
    . refine .inr (.inl ⟨hop, hsome, ?_⟩)
      cases edit with
      | unmute target =>
        rw [Option.getD_some, RoomEdit.apply, AssocMap.lookup_erase, hnone, ite_self]
      | timeout target expiry => simp [Memory.Makes, hop] at hmakes
      | _ => exact hnone
    . obtain ⟨hbanned, htimeouts, hkind'⟩ := RoomEdit.apply_classic hpermitted hkind
      refine .inr (.inr ⟨hkind', hsome, ?_, ?_⟩)
      . exact (congrArg (AList.lookup userId) hbanned).trans hnone
      . exact (congrArg (AList.lookup userId) htimeouts).trans hnone'

/--
What holds between the steps of a request once it has lifted a sanction of the account.
-/
structure SanctionLost (userId roomId : String) (room : RoomRecord) (g : Memory) (s : AppState) : Prop where
  base (roomId : String) (room : RoomRecord)
    : g.base = some (roomId, some room) → s.database.lookup roomId = some room
  op : g.req.op? ≠ some .deleteRoom
  lifted : Stored (g.Lifted userId room) roomId s

theorem SanctionLost.step (h : SanctionLost userId roomId room g s) (hstep : Transition g e s l s')
    : SanctionLost userId roomId room (g.next l) s' where
  base := base_step hstep h.base
  op := by simpa using h.op
  lifted := by
    obtain ⟨room', hstored, hlifted⟩ := h.lifted
    have hsame : (g.next l).Lifted userId room = g.Lifted userId room := by
      funext room'
      rw [Memory.Lifted, Memory.Lifted, Memory.next_req]
    rw [hsame]
    refine hstep.stored h.lifted ?_ ?_
    . rintro record rfl
      exact hlifted.wrote h.base hstored hstep
    . rintro rfl
      exact h.op hstep.2

theorem OwnSanctions.lost_step (h : OwnSanctions userId roomId sid room g s)
    (hnot : ¬ g.keepsOwn userId roomId room l) (hwrites : g.sanctionsStep l) (hstep : Transition g e s l s')
    : SanctionLost userId roomId room (g.next l) s' := by
  cases l with
  | wrote roomId' record =>
    have hsanctions := hwrites _ _ rfl
    obtain ⟨rfl, hlifts⟩ : roomId' = roomId ∧ g.liftsOwn userId room := by simpa [Memory.keepsOwn] using hnot
    refine ⟨base_step hstep h.base, ?_, record, by simp [hstep.1], ?_⟩
    . rw [Memory.next_req]
      intro hop
      simp [Memory.Sanctions, hop] at hsanctions
    . rw [Memory.Lifted, Memory.next_req]
      rcases Memory.liftsOwn_iff.1 hlifts with ⟨hunread, hsome⟩ | ⟨htarget, ⟨hop, hsome⟩ | ⟨hop, hsome⟩⟩
      . obtain ⟨-, snapshot, edit, hbase, -, hpermitted, rfl⟩ := hstep
        obtain rfl : snapshot = none := by simpa [hbase] using hunread
        obtain ⟨hkind, hbanned, htimeout⟩ := RoomEdit.apply_defaultRecord hpermitted
        exact .inr (.inr ⟨hkind, hsome, hbanned, htimeout⟩)
      . simp only [Memory.Sanctions, hop] at hsanctions
        exact .inl ⟨hop, hsome, hsanctions userId htarget⟩
      . simp only [Memory.Sanctions, hop] at hsanctions
        exact .inr (.inl ⟨hop, hsome, hsanctions userId htarget⟩)
  | _ => simp [Memory.keepsOwn] at hnot

end Lost

/--
A request of an account keeps the sanctions of the account in a room exactly if none of its steps lifts one.
-/
theorem keepsSanctions_iff {req : Request} {tr : List (Env × Label)} {player : PlayerSession}
    (hroom : s.database.lookup roomId = some room) (hplayer : s.players.lookup sid = some player)
    (hsid : req.sid? = some sid) (run : Prog.Trace (Request.handle req) s tr () s')
    : (∀ room', s'.database.lookup roomId = some room' → SanctionsKept player.userId room room')
        ↔ Prog.Along Memory.next (fun g _ l => g.keepsOwn player.userId roomId room l) (server.start req) tr := by
  have hspec := (Sound.handle req).and (Sanctioning.handle req)
  have hstart : OwnSanctions player.userId roomId sid room (server.start req) s := by
    refine ⟨hsid, by simp [server], fun player' _ hplayer' => ?_, by simp [server], fun _ => ?_, ?_⟩
    . rw [hplayer] at hplayer'
      rw [Option.some.inj hplayer']
    . exact Option.isSome_of_eq_some hroom
    . intro room' hroom'
      obtain rfl : room = room' := Option.some.inj (hroom.symm.trans hroom')
      exact .refl _ _
  constructor
  . intro hkept
    by_contra hnot
    obtain ⟨g, e, l, s₁, s₂, rest, tr', hlifts, hown, hstep, hrest, hrun⟩ :=
      run.exists_not_along (OwnSanctions player.userId roomId sid room)
        (fun g e s l s' hkeeps hstep h => h.step hkeeps hstep.2 hstep.1) hspec hnot hstart
    obtain ⟨g', -, hlost⟩ := hrun.of_spec (P := fun _ _ _ => True) (SanctionLost player.userId roomId room)
      (fun g e s l s' _ hstep h => h.step hstep.1) hrest (.of_forall fun _ _ => trivial)
      (hown.lost_step hlifts hstep.2 hstep.1)
    obtain ⟨room', hroom', hlifted⟩ := hlost.lifted
    exact hlifted.not_kept (hkept room' hroom')
  . intro halong
    obtain ⟨g, -, hown⟩ := run.of_spec (OwnSanctions player.userId roomId sid room)
      (fun g e s l s' hkeeps hstep h => h.step hkeeps hstep.2 hstep.1) hspec halong hstart
    exact hown.kept

section Unmuting

/--
In every community room that requests lead to when they are served one after the other, a request of a session
keeps the sanctions of its account.
-/
def NobodyLiftsOwn : Prop :=
  ∀ start log s sid player roomId room req tr s',
    start.database = ∅ → Prog.Served Request.handle (fun _ _ _ => True) start log s →
    s.database.lookup roomId = some room → room.kind = .community →
    s.players.lookup sid = some player → req.sid? = some sid →
    Prog.Trace (Request.handle req) s tr () s' →
    ∀ room', s'.database.lookup roomId = some room' → SanctionsKept player.userId room room'

def unmutingServer : AppState where
  accounts :=
    { users := ((∅ : AssocMap String StoredUser).insert "o" { id := "o", username := "olga" }).insert "m"
        { id := "m", username := "mona" }
      sessions := ((∅ : AssocMap String SessionRow).insert "tokenO"
        { userId := "o", expiresAt := 10 }).insert "tokenM" { userId := "m", expiresAt := 10 } }

/--
The first account creates a room, makes the other one a sub-administrator there and mutes it.
-/
def muting : List (Request × Env) :=
  [(.connect "a", .calm), (.message "a" .identify (.obj [("token", .str "tokenO")]), .calm),
    (.message "a" .create (.obj [("roomId", .str "community")]), .calm),
    (.message "a" .join (.obj [("gameId", .str "community")]), .calm),
    (.connect "b", .calm), (.message "b" .identify (.obj [("token", .str "tokenM")]), .calm),
    (.message "b" .join (.obj [("gameId", .str "community")]), .calm),
    (.message "a" .memberRole (.obj [("targetUserId", .str "m"), ("role", .str "subAdmin")]), .calm),
    (.message "a" .timeout (.obj [("targetUserId", .str "m")]), .calm)]

def mutedUntil (userId : String) (s : AppState) : Option (Option Nat) :=
  (s.database.lookup "community").map (·.timeouts.lookup userId)

def mutedServer : AppState where
  players := (∅ : AssocMap String PlayerSession).insert "b"
    { id := "b", userId := "m", username := "mona", rooms := ["community"] }
  database := (∅ : AssocMap String RoomRecord).insert "community"
    { roomId := "community", kind := .community, ownerId := some "o"
      roles := (∅ : AssocMap String RoomRole).insert "m" .subAdministrator
      timeouts := (∅ : AssocMap String Nat).insert "m" 60000 }

/--
It changes the description of the room, and stays muted.
-/
theorem keepsSanctions_roomDescription
    : ∃ room' s' tr,
        Prog.Trace (Request.handle (.message "b" .roomDescription (.obj [("description", .str "hello")])))
            mutedServer tr () s'
          ∧ s'.database.lookup "community" = some room' ∧ room'.description = "hello"
          ∧ ∃ expiry, room'.timeouts.lookup "m" = some expiry ∧ 60000 ≤ expiry := by
  let describe : Request := .message "b" .roomDescription (.obj [("description", .str "hello")])
  have run := Prog.trace_play .calm (Request.handle describe) mutedServer
  have halong : Prog.Along Memory.next (fun g _ l => g.keepsOwn "m" "community"
      { roomId := "community", kind := .community, ownerId := some "o"
        roles := (∅ : AssocMap String RoomRole).insert "m" .subAdministrator
        timeouts := (∅ : AssocMap String Nat).insert "m" 60000 } l) (server.start describe)
      (Prog.play .calm (Request.handle describe) mutedServer).1 := by decide +kernel
  have hdescription : ((Prog.play .calm (Request.handle describe) mutedServer).2.2.database.lookup
      "community").map (·.description) = some "hello" := by decide +kernel
  obtain ⟨room', hroom', hdescription⟩ := Option.map_eq_some_iff.1 hdescription
  have hplayer : mutedServer.players.lookup "b"
      = some { id := "b", userId := "m", username := "mona", rooms := ["community"] } := rfl
  have hkept := (keepsSanctions_iff rfl hplayer rfl run).2 halong room' hroom'
  exact ⟨room', _, _, run, hroom', hdescription, hkept.timeout 60000 rfl⟩

/--
A sub-administrator can unmute itself.
-/
theorem not_nobodyLiftsOwn : ¬ NobodyLiftsOwn := by
  intro h
  let unmute : Request := .message "b" .unmute (.obj [("targetUserId", .str "m")])
  have hplay : ((Prog.Served.playAll Request.handle (fun _ _ _ => true) muting unmutingServer).map (·.2)).bind
      (fun s => some ((s.database.lookup "community").map (·.kind), mutedUntil "m" s,
        (s.players.lookup "b").map (·.userId), mutedUntil "m" (Prog.play .calm (Request.handle unmute) s).2.2))
        = some (some .community, some (some 60000), some "m", some none) := by decide +kernel
  obtain ⟨log, s, hserved, hfields⟩ := Prog.Served.exists_of_playAll hplay
  simp only [Option.some.injEq, Prod.mk.injEq] at hfields
  obtain ⟨hkind, hmuted, hplayer, hunmuted⟩ := hfields
  obtain ⟨room, hroom, hkind⟩ := Option.map_eq_some_iff.1 hkind
  obtain ⟨player, hplayer, huser⟩ := Option.map_eq_some_iff.1 hplayer
  obtain ⟨room', hroom', hnone⟩ := Option.map_eq_some_iff.1 hunmuted
  have hsome : room.timeouts.lookup "m" = some 60000 := by simpa [mutedUntil, hroom] using hmuted
  have hkept := h unmutingServer log s "b" player "community" room unmute _ _ rfl
    (hserved.mono fun _ _ _ _ => trivial) hroom hkind hplayer rfl (Prog.trace_play _ _ _) room' hroom'
  rw [huser] at hkept
  obtain ⟨expiry, hexpiry, -⟩ := hkept.timeout 60000 hsome
  rw [hnone] at hexpiry
  exact Option.some_ne_none expiry hexpiry.symm

end Unmuting

end Lqxp
