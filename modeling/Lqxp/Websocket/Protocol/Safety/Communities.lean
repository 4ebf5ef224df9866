import Lqxp.Websocket.Protocol.Lemmas.Records

/-!
This module contains what becomes of the record of a community room: it can be replaced by that of a
classic room when a handler has not seen it, because a query has failed or because the handler has
asked before the room was created.
-/

namespace Lqxp

/--
The record of a community room with an owner.
-/
abbrev Owned (room : RoomRecord) : Prop := room.kind = .community ∧ room.ownerId.isSome

/--
What a refresh may change about a record.
-/
def Refreshed (room room' : RoomRecord) : Prop :=
  ∃ title members,
    room' = { room with title, members } ∧ (title = room.title ∨ Text.trim room.title = "")

/--
The environment does not write the record of a room.
-/
def Undisturbed (roomId : String) (s s' : AppState) : Prop :=
  s'.database.lookup roomId = s.database.lookup roomId

/--
Once its creation has been confirmed, a room stays a community room with an owner, as long as the events
of the run are as `kept` says. A refresh and a new icon that nobody interferes with, and whose steps are
as `adm` says, only change what they are about.
-/
def NeverReverts (kept : Nat → String → List ServerEvent → Prop)
    (adm : Env → AppState → Label → Prop) : Prop :=
  (∀ (p q : ServerPool) (pre post : List ServerEvent) i g e sid payload roomId,
    p.threads = [] →
    Prog.Run server (fun _ _ _ _ _ => True) p (pre ++ .act i g e (.reply sid payload) :: post) q →
    g.req.op? = some .create → isOkFor 40 roomId payload →
    kept i roomId (pre ++ .act i g e (.reply sid payload) :: post) →
    Stored Owned roomId q.state)
  ∧ (∀ s s' roomId room result,
    s.database.lookup roomId = some room → room.roomId = roomId →
    Prog.Complete (Undisturbed roomId) adm (syncRoomRecord roomId) s result s' →
    Stored (Refreshed room) roomId s')
  ∧ (∀ s s' roomId room icon result,
    s.database.lookup roomId = some room → room.roomId = roomId →
    Prog.Complete (Undisturbed roomId) adm (setRoomIcon roomId icon) s result s' →
    Stored (fun room' => room' = room ∨ room' = { room with icon := some icon }) roomId s')

/--
Nobody deletes the room.
-/
def NotErased (roomId : String) (tr : List ServerEvent) : Prop :=
  ∀ j g e, .act j g e (.erased roomId) ∉ tr

/--
A step does not turn a community room into a classic one: it does not delete the room, and if it writes
the record of the room, it works on a record of the community room.
-/
def Memory.keepsCommunity (g : Memory) (roomId : String) : Label → Bool
  | .wrote roomId' _ => roomId' ≠ roomId || g.base.any fun x => x.2.any fun room => Owned room
  | .erased roomId' => roomId' ≠ roomId
  | _ => true

def keepsCommunity (roomId : String) : ServerEvent → Bool
  | .act _ g _ l => g.keepsCommunity roomId l
  | .start .. => true

/--
Run number `i` inserts the record of a new room.
-/
def creates (i : Nat) (roomId : String) : ServerEvent → Bool
  | .act j _ _ (.created roomId' _) => j = i && roomId' = roomId
  | _ => false

/--
Every step after run number `i` has created the room keeps it a community room.
-/
def CommunityKept (i : Nat) (roomId : String) (tr : List ServerEvent) : Prop :=
  tr.Pairwise fun ev ev' => creates i roomId ev → keepsCommunity roomId ev'

instance (i : Nat) (roomId : String) (tr : List ServerEvent)
    : Decidable (CommunityKept i roomId tr) :=
  inferInstanceAs (Decidable (tr.Pairwise _))

variable {g : Memory} {e : Env} {s s' : AppState} {l : Label} {roomId : String}

theorem RoomEdit.owned_apply {edit : RoomEdit} {room : RoomRecord} (actor : String)
    (h : Owned room) : Owned (edit.apply actor room) := by
  refine ⟨(edit.kind_apply actor room).trans h.1, ?_⟩
  cases edit with
  | transfer target => rfl
  | _ => exact h.2

theorem owned_step (h : Transition g e s l s') (hkeeps : g.keepsCommunity roomId l)
    (howned : Stored Owned roomId s) : Stored Owned roomId s' := by
  refine h.stored howned ?_ ?_
  . rintro record rfl
    obtain ⟨-, snapshot, edit, hbase, -, -, rfl⟩ := h
    obtain ⟨room, rfl, hroom⟩ : ∃ room, snapshot = some room ∧ Owned room := by
      simpa [Memory.keepsCommunity, hbase, Option.any_eq_true] using hkeeps
    exact RoomEdit.owned_apply g.actorId hroom
  . rintro rfl
    simp [Memory.keepsCommunity] at hkeeps

theorem Memory.created_of_next (hbefore : g.created ≠ some roomId)
    (hafter : (g.next l).created = some roomId) : ∃ record, l = .created roomId record := by
  cases l with
  | created roomId' record =>
    obtain rfl : roomId' = roomId := by simpa [Memory.next] using hafter
    exact ⟨record, rfl⟩
  | wrote roomId' record =>
    have hsame := (Follows.wrote g roomId' record).created
    exact absurd (hsame.symm.trans hafter) hbefore
  | _ => exact absurd hafter hbefore

theorem owned_newRoom (d : Json) (roomId userId : String) : Owned (newRoom d roomId userId) :=
  ⟨rfl, rfl⟩

theorem owned_of_run {adm : Memory → Env → AppState → Label → AppState → Prop} {p q : ServerPool}
    {pre post : List ServerEvent} {i : Nat} {sid : String} {payload : Json}
    (hrun : Prog.Run server adm p (pre ++ .act i g e (.reply sid payload) :: post) q)
    (hp : p.threads = []) (hop : g.req.op? = some .create) (hok : isOkFor 40 roomId payload)
    (hkept : CommunityKept i roomId (pre ++ .act i g e (.reply sid payload) :: post))
    : Stored Owned roomId q.state := by
  have hsound := transition_of_run hrun hp
  obtain ⟨r, r', hbefore, hreply, -⟩ := hsound.split_at
  obtain ⟨⟨-, -, hconfirms⟩, prog, hthread, -⟩ := hreply.of_act
  -- The confirmation comes from a run that remembers the creation, so it has inserted the record.
  obtain ⟨pre', g', e', l, post', rfl, hnot, hnext⟩ :=
    hbefore.exists_act (·.created = some roomId) (by simp [server]) hp hthread
      (hconfirms.create roomId hop hok)
  obtain ⟨record, rfl⟩ := Memory.created_of_next hnot hnext
  -- From the insertion on every step keeps the room.
  rw [List.append_assoc, List.cons_append] at hsound
  rw [CommunityKept, List.append_assoc, List.cons_append] at hkept
  have hkept' := (List.pairwise_cons.1 (List.pairwise_append.1 hkept).2.1).1
  obtain ⟨r₁, r₂, -, hwrite, hrest⟩ := hsound.split_at
  obtain ⟨⟨-, hstate, -, sid', d, -, hrecord⟩, -⟩ := hwrite.of_act
  have hstart : Stored Owned roomId r₂.state :=
    ⟨record, by simp [hstate], hrecord ▸ owned_newRoom d roomId g'.actorId⟩
  have hrestricted := hrest.restrict (fun g _ l => g.keepsCommunity roomId l) fun j g e l hmem =>
    hkept' (.act j g e l) hmem (by simp [creates])
  refine hrestricted.state_invariant (Stored Owned roomId) ?_ hstart
  intro g e s l s' hstep howned
  exact owned_step hstep.1.2 hstep.2 howned

section Refresh

variable {room : RoomRecord}

/--
The reads of records succeed.
-/
def ReadsSucceed (e : Env) (_ : AppState) : Label → Prop
  | .read .. => e.dbFails = false
  | _ => True

theorem wp_look {f : Env → AppState → α} {post : α → AppState → Prop}
    (hroom : s.database.lookup roomId = some room)
    (h : ∀ a s', s'.database.lookup roomId = some room → post a s')
    : Prog.wp (Undisturbed roomId) ReadsSucceed post (look f) s :=
  Prog.wp_atom_iff.2 fun s' hrely e _ => h (f e s') s' (hrely.trans hroom)

theorem wp_roomRecord {post : Option RoomRecord → AppState → Prop}
    (hroom : s.database.lookup roomId = some room)
    (h : ∀ s', s'.database.lookup roomId = some room → post (some room) s')
    : Prog.wp (Undisturbed roomId) ReadsSucceed post (roomRecord roomId) s := by
  refine Prog.wp_atom_iff.2 fun s' hrely e hread => ?_
  have hroom' : s'.database.lookup roomId = some room := hrely.trans hroom
  have hresult : e.readRoom s' roomId = some room := by
    rw [Env.readRoom, if_neg (by simpa [ReadsSucceed] using hread), hroom']
  rw [hresult]
  exact h s' hroom'

theorem wp_setRoomRecord {record : RoomRecord} {post : Bool → AppState → Prop}
    (hroom : s.database.lookup roomId = some room)
    (hfail : ∀ s', s'.database.lookup roomId = some room → post false s')
    (h : ∀ s', s'.database.lookup roomId = some { record with roomId } → post true s')
    : Prog.wp (Undisturbed roomId) ReadsSucceed post (setRoomRecord roomId record) s := by
  refine Prog.wp_atom_iff.2 fun s' hrely e _ => ?_
  cases e.dbFails with
  | true => exact hfail s' (hrely.trans hroom)
  | false => exact h _ (AList.lookup_insert _)

theorem wp_syncRoomRecord (hroom : s.database.lookup roomId = some room)
    (hkey : room.roomId = roomId)
    : Prog.wp (Undisturbed roomId) ReadsSucceed (fun _ s' => Stored (Refreshed room) roomId s')
        (syncRoomRecord roomId) s := by
  refine Prog.wp_bind_iff.2 <| wp_look hroom fun members s₁ hroom₁ => ?_
  refine Prog.wp_bind_iff.2 <| wp_roomRecord hroom₁ fun s₂ hroom₂ => ?_
  refine Prog.wp_bind_iff.2 <| wp_setRoomRecord hroom₂ (fun s₃ hroom₃ => ?_) fun s₃ hroom₃ => ?_
  . exact ⟨room, hroom₃, room.title, room.members, rfl, .inl rfl⟩
  . refine ⟨_, hroom₃, _, members, by rw [← hkey]; rfl, ?_⟩
    by_cases hblank : Text.trim room.title = ""
    . exact .inr hblank
    . exact .inl (if_neg hblank)

theorem wp_setRoomIcon {icon : RoomIcon} (hroom : s.database.lookup roomId = some room)
    (hkey : room.roomId = roomId)
    : Prog.wp (Undisturbed roomId) ReadsSucceed
        (fun _ s' => Stored (fun room' => room' = room ∨ room' = { room with icon := some icon })
          roomId s')
        (setRoomIcon roomId icon) s := by
  refine Prog.wp_bind_iff.2 <| wp_roomRecord hroom fun s₁ hroom₁ => ?_
  refine wp_setRoomRecord hroom₁ (fun s₂ hroom₂ => ?_) fun s₂ hroom₂ => ?_
  . exact ⟨room, hroom₂, .inl rfl⟩
  . exact ⟨_, hroom₂, .inr (by rw [← hkey]; rfl)⟩

end Refresh

/--
What keeps communities communities: nobody writes a record that does not come from one of the room, and
the reads of refreshes do not fail.
-/
theorem neverReverts (roomId : String)
    : (∀ (p q : ServerPool) (pre post : List ServerEvent) i g e sid payload,
        p.threads = [] →
        Prog.Run server (fun _ _ _ _ _ => True) p (pre ++ .act i g e (.reply sid payload) :: post) q →
        g.req.op? = some .create → isOkFor 40 roomId payload →
        CommunityKept i roomId (pre ++ .act i g e (.reply sid payload) :: post) →
        Stored Owned roomId q.state)
      ∧ (∀ s s' room result,
        s.database.lookup roomId = some room → room.roomId = roomId →
        Prog.Complete (Undisturbed roomId) ReadsSucceed (syncRoomRecord roomId) s result s' →
        Stored (Refreshed room) roomId s')
      ∧ (∀ s s' room icon result,
        s.database.lookup roomId = some room → room.roomId = roomId →
        Prog.Complete (Undisturbed roomId) ReadsSucceed (setRoomIcon roomId icon) s result s' →
        Stored (fun room' => room' = room ∨ room' = { room with icon := some icon }) roomId s') := by
  refine ⟨?_, ?_, ?_⟩
  . intro p q pre post i g e sid payload hp hrun hop hok hkept
    exact owned_of_run hrun hp hop hok hkept
  . intro s s' room result hroom hkey run
    have hend := run.of_wp (wp_syncRoomRecord hroom hkey)
    exact hend
  . intro s s' room icon result hroom hkey run
    have hend := run.of_wp (wp_setRoomIcon hroom hkey)
    exact hend

section Failure

def confirmsCreation (i : Nat) (roomId : String) : ServerEvent → Bool
  | .act j g _ (.reply _ payload) => j = i && g.req.op? = some .create && isOkFor 40 roomId payload
  | _ => false

theorem exists_of_confirmsCreation {i : Nat} {ev : ServerEvent} (h : confirmsCreation i roomId ev)
    : ∃ g e sid payload,
        ev = .act i g e (.reply sid payload) ∧ g.req.op? = some .create
          ∧ isOkFor 40 roomId payload := by
  unfold confirmsCreation at h
  split at h
  next j g e sid payload =>
    simp only [Bool.and_eq_true, decide_eq_true_eq] at h
    obtain ⟨⟨rfl, hop⟩, hok⟩ := h
    exact ⟨g, e, sid, payload, rfl, hop, hok⟩
  next => contradiction

def foundingServer : ServerPool :=
  idleServer
    [{ id := "a", userId := "o", username := "olga" }, { id := "b", userId := "u", username := "uwe" }]
    [] []

/--
One session creates a room and the other one joins it, up to the read of the record to be refreshed.
-/
def founding : List (Prog.Cmd Request Env) :=
  Prog.Cmd.serve (.message "a" .create (.obj [("roomId", .str "community")])) 0 6 .calm
    ++ Prog.Cmd.serve (.message "b" .join (.obj [("gameId", .str "community")])) 1 4 .calm

def storedCommunity : RoomRecord := { roomId := "community", kind := .community, ownerId := some "o" }

def communityServer : AppState where
  database := (∅ : AssocMap String RoomRecord).insert "community" storedCommunity

def sunIcon : RoomIcon where
  file := { id := "sun.png", url := "/uploads/sun.png", size := 1, mimeType := "image/png" }

theorem complete_of_exec {es : List Env} {p : Proto α} {a : α} {s s' : AppState}
    (h : Prog.exec (fun e _ _ => !e.dbFails) es p s = some (a, s'))
    : Prog.Complete (Undisturbed roomId) ReadsSucceed p s a s' := by
  refine ((Prog.Complete.of_exec h).rely_mono fun s s' heq => heq ▸ rfl).mono fun e s l hadm => ?_
  unfold ReadsSucceed
  split
  . simpa using hadm
  . trivial

/--
If the record can be read, the community stays one, and so it does under a refresh and a new icon.
-/
theorem neverReverts_founding
    : (∃ tr q, Prog.Run server (fun _ _ _ _ _ => True) foundingServer tr q ∧ Stored Owned "community" q.state)
      ∧ (∃ result s', Prog.Complete (Undisturbed "community") ReadsSucceed (syncRoomRecord "community")
            communityServer result s'
          ∧ Stored (Refreshed storedCommunity) "community" s')
      ∧ ∃ result s', Prog.Complete (Undisturbed "community") ReadsSucceed
            (setRoomIcon "community" sunIcon) communityServer result s'
          ∧ Stored (fun room => room = storedCommunity ∨ room = { storedCommunity with icon := some sunIcon })
            "community" s' := by
  refine ⟨?_, ?_, ?_⟩
  . obtain ⟨pre, ev, post, q, hrun, htest⟩ := Prog.Run.exists_at_of_exec server
      (founding ++ [.act 1 .calm, .act 1 .calm]) foundingServer 6
      (fun pre ev post _ => confirmsCreation 0 "community" ev
        && CommunityKept 0 "community" (pre ++ ev :: post))
      (by decide +kernel)
    simp only [Bool.and_eq_true, decide_eq_true_eq] at htest
    obtain ⟨hconfirms, hkept⟩ := htest
    obtain ⟨g, e, sid, payload, rfl, hop, hok⟩ := exists_of_confirmsCreation hconfirms
    exact ⟨_, q, hrun, (neverReverts _).1 _ q pre post 0 g e sid payload rfl hrun hop hok hkept⟩
  . obtain ⟨⟨result, s'⟩, hexec⟩ := Option.isSome_iff_exists.1 (show (Prog.exec (fun e _ _ => !e.dbFails)
      (List.replicate 3 .calm) (syncRoomRecord "community") communityServer).isSome = true by decide +kernel)
    have run : Prog.Complete (Undisturbed "community") ReadsSucceed _ _ result s' := complete_of_exec hexec
    exact ⟨result, s', run, (neverReverts "community").2.1 _ _ _ _ rfl rfl run⟩
  . obtain ⟨⟨result, s'⟩, hexec⟩ := Option.isSome_iff_exists.1 (show (Prog.exec (fun e _ _ => !e.dbFails)
      (List.replicate 2 .calm) (setRoomIcon "community" sunIcon) communityServer).isSome = true by decide +kernel)
    have run : Prog.Complete (Undisturbed "community") ReadsSucceed _ _ result s' := complete_of_exec hexec
    exact ⟨result, s', run, (neverReverts "community").2.2 _ _ _ _ _ rfl rfl run⟩

/--
If it cannot, the room is a classic one afterwards.
-/
theorem not_neverReverts : ¬ NeverReverts (fun _ => NotErased) fun _ _ _ => True := by
  intro h
  obtain ⟨pre, ev, post, q, hrun, htest⟩ := Prog.Run.exists_at_of_exec server
    (founding ++ [.act 1 { dbFails := true }, .act 1 .calm]) foundingServer 6
    (fun pre ev post q => confirmsCreation 0 "community" ev
      && !(pre ++ ev :: post).any (erases "community")
      && !Stored Owned "community" q.state)
    (by decide +kernel)
  simp only [Bool.and_eq_true, Bool.not_eq_true', List.any_eq_false, decide_eq_false_iff_not]
    at htest
  obtain ⟨⟨hconfirms, herases⟩, howned⟩ := htest
  obtain ⟨g, e, sid, payload, rfl, hop, hok⟩ := exists_of_confirmsCreation hconfirms
  refine howned (h.1 _ q pre post 0 g e sid payload _ rfl hrun hop hok ?_)
  intro j g' e' hmem
  exact herases _ hmem (by simp [erases])

end Failure

end Lqxp
