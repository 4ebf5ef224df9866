import Lqxp.Websocket.Protocol.Lemmas.Members

/-!
This module contains what keeps banned accounts out of a room when handlers run one after the other: the
invariant that holds between the steps of a handler, with the two moments at which a banned account is
still or already in the room.
-/

namespace Lqxp

/--
The stored record of a room keeps an account out.
-/
abbrev AppState.Bans (s : AppState) (roomId userId : String) : Prop :=
  Stored (fun room => room.bans userId) roomId s

def NoBannedInside (s : AppState) : Prop :=
  ∀ sid roomId userId, s.Inside sid roomId userId → ¬ s.Bans roomId userId

/--
Starting without sessions, complete runs of handlers whose steps are as `adm` says never leave a session
in a room that its account is banned from.
-/
def BannedStayOut (adm : Env → AppState → Label → Prop) : Prop :=
  ∀ s s' reqs, s.players = ∅ → Prog.Sequential server adm s reqs s' → NoBannedInside s'

/--
A session is not bound to an account that is banned from one of its rooms, and a record can be read as
long as a session of an account that it bans is in the room.
-/
def checksBans (e : Env) (s : AppState) : Label → Bool
  | .bound sid userId =>
    (s.players.lookup sid).all fun player => player.rooms.all fun roomId => !s.Bans roomId userId
  | .read roomId _ =>
    !e.dbFails || s.players.values.all fun player =>
      !(player.rooms.contains roomId && s.Bans roomId player.userId)
  | _ => true

/--
The reason why a session may be in a room that its account is banned from: it has just come in and the
ban has not been looked up, or the account has just been banned.
-/
def Memory.Pending (g : Memory) (sid roomId userId : String) : Prop :=
  g.entering = some (sid, roomId, userId) ∨ g.evicting = some (userId, roomId)

/--
The invariant within a run: the banned accounts that are inside are pending, the run works on what is
stored, and it evicts nobody before it has banned somebody.
-/
structure Guarded (g : Memory) (s : AppState) : Prop where
  inside (sid roomId userId : String)
    : s.Inside sid roomId userId → s.Bans roomId userId → g.Pending sid roomId userId
  base (roomId : String) (room : RoomRecord)
    : g.base = some (roomId, some room) → s.database.lookup roomId = some room
  evicting : g.banned = none → g.evicting = none

variable {g : Memory} {e : Env} {s s' : AppState} {l : Label} {sid roomId userId : String}

theorem evicting_step (h : Transition g e s l s') (hevicting : g.banned = none → g.evicting = none)
    (hbanned : (g.next l).banned = none) : (g.next l).evicting = none := by
  cases l with
  | target => exact h.2
  | removed => rfl
  | wrote roomId record =>
    simp only [Memory.next] at hbanned ⊢
    split at hbanned
    . contradiction
    . exact hevicting hbanned
  | _ => exact hevicting hbanned

theorem base_step (h : Transition g e s l s')
    (hbase : ∀ roomId room, g.base = some (roomId, some room) →
      s.database.lookup roomId = some room)
    (roomId : String) (room : RoomRecord) (hnext : (g.next l).base = some (roomId, some room))
    : s'.database.lookup roomId = some room := by
  cases l with
  | read roomId' result =>
    obtain ⟨rfl, hresult⟩ := h
    simp only [Memory.next] at hnext
    split at hnext
    . exact hbase roomId room hnext
    . obtain ⟨rfl, rfl⟩ : roomId' = roomId ∧ result = some room := by simpa using hnext
      unfold Env.readRoom at hresult
      split at hresult
      . contradiction
      . exact hresult.symm
  | wrote roomId' record =>
    rw [Memory.next_wrote_base] at hnext
    obtain ⟨rfl, rfl⟩ : roomId' = roomId ∧ record = room := by simpa using hnext
    simp [h.1]
  | created roomId' record =>
    obtain ⟨rfl, rfl⟩ : roomId' = roomId ∧ record = room := by simpa [Memory.next] using hnext
    simp [h.1]
  | erased => simp [Memory.next] at hnext
  | _ =>
    rw [h.lookup_database (by simp [Label.stores])]
    exact hbase roomId room hnext

theorem bans_of_wrote {record : RoomRecord} (h : Transition g e s (.wrote roomId record) s')
    (hbase : ∀ roomId room, g.base = some (roomId, some room) →
      s.database.lookup roomId = some room)
    (hbans : record.bans userId)
    : s.Bans roomId userId
        ∨ g.req.op? = some .ban ∧ g.target = some userId ∧ g.banned = none := by
  obtain ⟨-, snapshot, edit, hsnapshot, hmakes, -, rfl⟩ := h
  simp only [RoomRecord.bans, Bool.and_eq_true, decide_eq_true_eq, RoomEdit.kind_apply] at hbans
  obtain ⟨hkind, hbanned⟩ := hbans
  cases snapshot with
  | none => simp [defaultRecord] at hkind
  | some room =>
    have hstored (hroom : (room.banned.lookup userId).isSome) : s.Bans roomId userId :=
      ⟨room, hbase roomId room hsnapshot, by simpa [RoomRecord.bans] using ⟨hkind, hroom⟩⟩
    cases edit with
    | ban target name =>
      simp only [Option.getD_some, RoomEdit.apply, AssocMap.lookup_insert] at hbanned
      split at hbanned
      next heq => exact .inr (heq ▸ hmakes)
      next => exact .inl (hstored hbanned)
    | unban target =>
      simp only [Option.getD_some, RoomEdit.apply, AssocMap.lookup_erase] at hbanned
      split at hbanned
      . contradiction
      . exact .inl (hstored hbanned)
    | _ => exact .inl (hstored hbanned)

theorem pending_wrote {record : RoomRecord}
    (hevicting : g.banned = none → g.evicting = none) {roomId' : String}
    (hpending : g.Pending sid roomId userId)
    : (g.next (.wrote roomId' record)).Pending sid roomId userId := by
  unfold Memory.Pending at hpending ⊢
  simp only [Memory.next]
  split
  . rcases hpending with hentering | hevicting'
    . exact .inl hentering
    . cases hbanned : g.banned with
      | none =>
        rw [hevicting hbanned] at hevicting'
        contradiction
      | some roomId => exact .inr hevicting'
  . exact hpending

theorem bans_of_read {result : Option RoomRecord} (h : Transition g e s (.read roomId result) s')
    (hchecks : checksBans e s (.read roomId result)) (hinside : s.Inside sid roomId userId)
    (hbans : s.Bans roomId userId) : result.any (·.bans userId) := by
  obtain ⟨player, hplayer, rfl, hroom⟩ := hinside
  have hreads : e.dbFails = false := by
    rw [checksBans, Bool.or_eq_true, List.all_eq_true] at hchecks
    rcases hchecks with hreads | hnobody
    . simpa using hreads
    . have hout := hnobody player (AssocMap.mem_values_of_lookup hplayer)
      simp [hroom, hbans] at hout
  obtain ⟨room, hstored, hroomBans⟩ := hbans
  rw [h.2, Env.readRoom, if_neg (by simp [hreads]), hstored]
  exact hroomBans

theorem inside_step (h : Transition g e s l s') (hchecks : checksBans e s l) (hguarded : Guarded g s)
    (hinside : s'.Inside sid roomId userId) (hbans : s'.Bans roomId userId)
    : (g.next l).Pending sid roomId userId := by
  have hold (hinside : s.Inside sid roomId userId) (hstores : l.stores ≠ some roomId)
      : g.Pending sid roomId userId := by
    obtain ⟨room, hroom, hroomBans⟩ := hbans
    rw [h.lookup_database hstores] at hroom
    exact hguarded.inside sid roomId userId hinside ⟨room, hroom, hroomBans⟩
  rcases h.inside hinside with hbefore | rfl | ⟨rfl, player, hplayer, hroom⟩
  . cases l with
    | left sid' roomId' =>
      rcases hold hbefore (by simp [Label.stores]) with hentering | hevicting
      . obtain ⟨rfl, rfl⟩ := h.2 _ hentering
        exact absurd hinside h.not_inside_left
      . exact .inr hevicting
    | removed userId' roomId' =>
      rcases hold hbefore (by simp [Label.stores]) with hentering | hevicting
      . exact .inl hentering
      . obtain ⟨rfl, rfl⟩ := Prod.mk.inj (h.2 _ hevicting)
        exact absurd hinside h.not_inside_removed
    | joined sid' roomId' userId' =>
      rcases hold hbefore (by simp [Label.stores]) with hentering | hevicting
      . rw [h.2.2] at hentering
        contradiction
      . exact .inr hevicting
    | read roomId' result =>
      rcases hold hbefore (by simp [Label.stores]) with hentering | hevicting
      . refine .inl (Option.filter_eq_some_iff.2 ⟨hentering, ?_⟩)
        by_cases hsame : roomId = roomId'
        . subst hsame
          rw [h.1] at hbans
          simp [bans_of_read h hchecks hbefore hbans]
        . simp [hsame]
      . exact .inr hevicting
    | wrote roomId' record =>
      by_cases hsame : roomId' = roomId
      . subst hsame
        obtain ⟨room, hroom, hroomBans⟩ := hbans
        obtain rfl : record = room := by simpa [h.1] using hroom
        rcases bans_of_wrote h hguarded.base hroomBans with hbans | ⟨hop, htarget, hbanned⟩
        . exact pending_wrote hguarded.evicting (hguarded.inside sid roomId' userId hbefore hbans)
        . have hrecord := hroomBans
          simp only [RoomRecord.bans, Bool.and_eq_true] at hrecord
          rw [Memory.next_ban (Memory.bansTarget_eq hop htarget hrecord.2) hbanned]
          exact .inr rfl
      . exact pending_wrote hguarded.evicting (hold hbefore (by simpa [Label.stores] using hsame))
    | created roomId' record =>
      refine hold hbefore ?_
      rintro ⟨⟩
      obtain ⟨room, hroom, hroomBans⟩ := hbans
      obtain ⟨hs', -, sid', d, -, hrecord⟩ := h
      obtain rfl : record = room := by simpa [hs'] using hroom
      simp [hrecord, RoomRecord.bans, newRoom] at hroomBans
    | erased roomId' =>
      refine hold hbefore ?_
      rintro ⟨⟩
      obtain ⟨room, hroom, -⟩ := hbans
      rw [h.1, AList.lookup_erase] at hroom
      contradiction
    | _ => exact hold hbefore (by simp [Label.stores])
  . exact .inl rfl
  . obtain ⟨room, hstored, hroomBans⟩ := hbans
    rw [h.lookup_database (by simp [Label.stores])] at hstored
    rw [checksBans, hplayer, Option.all_some, List.all_eq_true] at hchecks
    have hfree := hchecks roomId hroom
    simp [Stored, hstored, hroomBans] at hfree

theorem guarded_step (h : Transition g e s l s') (hchecks : checksBans e s l)
    (hguarded : Guarded g s) : Guarded (g.next l) s' where
  inside _ _ _ := inside_step h hchecks hguarded
  base := base_step h hguarded.base
  evicting := evicting_step h hguarded.evicting

theorem noBannedInside_of_complete {req : Request} {a : Unit}
    (run : Prog.Complete Eq (fun e s l => checksBans e s l) (server.handle req) s a s')
    (h : NoBannedInside s) : NoBannedInside s' := by
  have hstart : Guarded (server.start req) s := by
    refine ⟨fun sid roomId userId hinside hbans => ?_, by simp [server], fun _ => rfl⟩
    exact absurd hbans (h sid roomId userId hinside)
  have henv (g : Memory) (s s' : AppState) (heq : s = s') (h : Guarded g s) : Guarded g s' := heq ▸ h
  have hstep (g : Memory) (e : Env) (s : AppState) (l : Label) (s' : AppState)
      (hchecks : checksBans e s l) (h : Transition g e s l s') (hguarded : Guarded g s)
      : Guarded (g.next l) s' := guarded_step h hchecks hguarded
  obtain ⟨g, hsettled, hguarded⟩ := run.of_spec Guarded henv hstep (Sound.handle req) hstart
  intro sid roomId userId hinside hbans
  rcases hguarded.inside sid roomId userId hinside hbans with hentering | hevicting
  . rw [hsettled.entering] at hentering
    contradiction
  . rw [hsettled.evicting] at hevicting
    contradiction

theorem bannedStayOut (s s' : AppState) (reqs : List Request) (hplayers : s.players = ∅)
    (hruns : Prog.Sequential server (fun e s l => checksBans e s l) s reqs s') : NoBannedInside s' := by
  refine hruns.invariant NoBannedInside (fun _ _ _ _ => noBannedInside_of_complete) ?_
  rintro sid roomId userId ⟨player, hplayer, -⟩
  simp [hplayers] at hplayer

section Rebinding

/--
A community room that has banned the account t, and a token for each of two accounts.
-/
def strictServer : AppState where
  database := (∅ : AssocMap String RoomRecord).insert "community"
    { roomId := "community", kind := .community, ownerId := some "o",
      banned := (∅ : AssocMap String String).insert "t" "theo" }
  accounts :=
    { users := ((∅ : AssocMap String StoredUser).insert "u" { id := "u", username := "uwe" }).insert "t"
        { id := "t", username := "theo" }
      sessions := ((∅ : AssocMap String SessionRow).insert "tokenU"
        { userId := "u", expiresAt := 10 }).insert "tokenT" { userId := "t", expiresAt := 10 } }

def joining : List (Request × List Env) :=
  [(.connect "a", [.calm]),
    (.message "a" .identify (.obj [("token", .str "tokenU")]), List.replicate 5 .calm),
    (.message "a" .join (.obj [("gameId", .str "community")]), List.replicate 16 .calm)]

def rebinding : Request × List Env :=
  (.message "a" .identify (.obj [("token", .str "tokenT")]), List.replicate 5 .calm)

def isInside (s : AppState) (userId : String) : Bool :=
  (s.players.lookup "a").any fun player =>
    player.userId = userId && player.rooms.contains "community"

theorem bannedStayOut_joining
    : ∃ s,
        Prog.Sequential server (fun e s l => checksBans e s l) strictServer (joining.map (·.1)) s
          ∧ isInside s "u" ∧ NoBannedInside s := by
  obtain ⟨s, hexec, htest⟩ := (Option.any_eq_true (fun s => isInside s "u")
    (server.exec checksBans joining strictServer)).1 (by decide +kernel)
  have hruns := Prog.Sequential.of_exec hexec
  exact ⟨s, hruns, htest, bannedStayOut _ s _ rfl hruns⟩

/--
Identifying once more, as a banned account, leaves the session in the room.
-/
theorem not_bannedStayOut : ¬ BannedStayOut fun _ _ _ => True := by
  intro h
  obtain ⟨s, hexec, htest⟩ := (Option.any_eq_true
    (fun s => isInside s "t" && s.Bans "community" "t")
    (server.exec (fun _ _ _ => true) (joining ++ [rebinding]) strictServer)).1 (by decide +kernel)
  simp only [Bool.and_eq_true, decide_eq_true_eq] at htest
  obtain ⟨hinside, hbans⟩ := htest
  obtain ⟨player, hplayer, hmember⟩ := (Option.any_eq_true _ _).1 hinside
  simp only [Bool.and_eq_true, decide_eq_true_eq, List.contains_eq_mem] at hmember
  have hruns := (Prog.Sequential.of_exec hexec).mono fun _ _ _ _ => trivial
  exact h strictServer s _ rfl hruns "a" "community" "t" ⟨player, hplayer, hmember⟩ hbans

end Rebinding

end Lqxp
