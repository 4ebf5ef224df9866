import Lqxp.Presence.System

/-!
This module contains the proof that the fields of a session that concern calls fit together, as long as no
session is taken out of the room of its call and no session is identified anew across its call.
-/

namespace Lqxp

namespace PlayerSession

/--
Whether the fields of a session that concern calls fit together.
-/
structure CallConsistent (player : PlayerSession) : Prop where
  room : ∀ roomId, player.callRoom = some roomId → player.isVoiceChat ∧ roomId ∈ player.rooms
  media : player.callCamera ∨ player.callScreen ∨ player.callDeafened → player.isVoiceChat
  visible : player.status = .invisible → player.isVoiceChat = false

namespace CallConsistent

variable {player : PlayerSession}

theorem fresh (sid : String) : CallConsistent { id := sid } where
  room _ h := by contradiction
  media h := by simp at h
  visible _ := rfl

theorem hangUp (player : PlayerSession) : player.hangUp.CallConsistent where
  room _ h := by contradiction
  media h := by simp [PlayerSession.hangUp] at h
  visible _ := rfl

theorem enter (h : player.CallConsistent) (roomId : String) : (player.enter roomId).CallConsistent := by
  unfold PlayerSession.enter
  split
  . exact h
  . refine ⟨fun room hroom => ?_, h.media, h.visible⟩
    exact (h.room room hroom).imp_right fun hmem => List.mem_append_left _ hmem

theorem exit (h : player.CallConsistent) {roomId : String} (hroom : player.callRoom ≠ some roomId)
    : (player.exit roomId).CallConsistent := by
  refine ⟨fun room hcall => ?_, h.media, h.visible⟩
  have hne : room ≠ roomId := fun heq => hroom (heq ▸ hcall)
  exact (h.room room hcall).imp_right fun hmem => List.mem_filter.2 ⟨hmem, by simpa using hne⟩

theorem setCall {isVoiceChat camera screen : Bool} {callRoom : Option String}
    (hroom : ∀ roomId, callRoom = some roomId → roomId ∈ player.rooms)
    (hvisible : isVoiceChat → player.status ≠ .invisible)
    : (player.setCall isVoiceChat camera screen callRoom).CallConsistent := by
  cases isVoiceChat with
  | false => exact hangUp player
  | true => exact ⟨fun roomId hcall => ⟨rfl, hroom roomId hcall⟩, fun _ => rfl, fun h => absurd h (hvisible rfl)⟩

theorem deafen (h : player.CallConsistent) (hvoice : player.isVoiceChat) (isDeafened : Bool)
    : CallConsistent { player with callDeafened := isDeafened } :=
  ⟨h.room, fun _ => hvoice, h.visible⟩

theorem applySettings (h : player.CallConsistent) (d : Json) (profile : Option UserProfile)
    (status : Option UserPresenceStatus) : (player.applySettings d profile status).CallConsistent := by
  unfold PlayerSession.applySettings
  dsimp only
  split
  . exact hangUp _
  next hstatus =>
    refine ⟨h.room, h.media, fun hinvisible => ?_⟩
    cases status with
    | none => exact h.visible hinvisible
    | some status => exact absurd (congrArg some hinvisible) hstatus

theorem identifyAs (h : player.CallConsistent) {account : AuthenticatedUser} {status : UserPresenceStatus}
    {d : Json} {now : Nat}
    (hclean : if MovesPlayers.isVoiceRequest d then status ≠ .invisible
      else player.callRoom = none && !player.callCamera && !player.callScreen && !player.callDeafened)
    : (player.identifyAs account status d now).CallConsistent := by
  have hvoice : (player.identifyAs account status d now).isVoiceChat = MovesPlayers.isVoiceRequest d := rfl
  split at hclean
  next hrequest =>
    rw [hrequest] at hvoice
    exact ⟨fun roomId hcall => ⟨hvoice, (h.room roomId hcall).2⟩, fun _ => hvoice, fun h => absurd h hclean⟩
  next hrequest =>
    simp only [Bool.and_eq_true, decide_eq_true_eq, Bool.not_eq_true'] at hclean
    obtain ⟨⟨⟨hcall, hcamera⟩, hscreen⟩, hdeafened⟩ := hclean
    rw [Bool.not_eq_true] at hrequest
    refine ⟨fun roomId hroom => ?_, fun hmedia => ?_, fun _ => hvoice.trans hrequest⟩
    . have hroom : player.callRoom = some roomId := hroom
      simp [hcall] at hroom
    . have hmedia : player.callCamera ∨ player.callScreen ∨ player.callDeafened := hmedia
      simp [hcamera, hscreen, hdeafened] at hmedia

end CallConsistent

end PlayerSession

namespace PresenceRequest

/--
Whether a step of a request spares the calls: it takes no session out of the room of its call, and it identifies
nobody with traces of a call that is over, or in a call while invisible.
-/
def sparesCalls (s : AppState) (req : PresenceRequest) : Label → Bool
  | .left sid roomId => (s.players.lookup sid).all fun player => player.callRoom ≠ some roomId
  | .removed userId roomId => s.players.values.all fun player =>
    player.userId ≠ userId || player.callRoom ≠ some roomId
  | .emptied roomId => s.players.values.all fun player => player.callRoom ≠ some roomId
  | .bound sid _ =>
    match req with
    | .identify _ d => (s.identifiedUser d).all fun user => (s.players.lookup sid).all fun player =>
      if MovesPlayers.isVoiceRequest d then
        (MovesPlayers.requestedStatus d).getD user.status ≠ .invisible
      else
        player.callRoom = none && !player.callCamera && !player.callScreen && !player.callDeafened
    | _ => true
  | _ => true

variable {start s s' : AppState} {tr : List (Env × Label)} {log : List (PresenceRequest × List (Env × Label))}

/--
The fields of every session that concern calls fit together.
-/
abbrev CallsConsistent (s : AppState) : Prop :=
  s.players.All fun _ player => player.CallConsistent

theorem callsConsistent_joins {sid : String} {m m' : AssocMap String PlayerSession} (h : Joins sid m m')
    (hm : m.All fun _ player => player.CallConsistent) : m'.All fun _ player => player.CallConsistent := by
  obtain ⟨player, roomId, hplayer, hroom, rfl | rfl⟩ := h
  . exact hm.modify fun _ _ h => h.enter roomId
  . refine (hm.modify fun _ _ h => h.enter roomId).modify fun entered hentered h => h.exit fun hcall => ?_
    -- The session was not in the room before, so its call is not there either.
    rw [AssocMap.lookup_modify_self, hplayer] at hentered
    obtain rfl : player.enter roomId = entered := Option.some.inj hentered
    have hcall : player.callRoom = some roomId := by
      unfold PlayerSession.enter at hcall
      split at hcall <;> exact hcall
    exact hroom ((hm sid player hplayer).room roomId hcall).2

theorem callsConsistent_setsCall {sid : String} {isVoiceChat camera screen : Bool} {callRoom : Option String}
    {m m' : AssocMap String PlayerSession}
    (h : MovesPlayers.SetsCall sid isVoiceChat camera screen callRoom m m')
    (hm : m.All fun _ player => player.CallConsistent) : m'.All fun _ player => player.CallConsistent := by
  obtain ⟨player, hplayer, hroom, hvisible, rfl⟩ := h
  refine hm.modify fun player' hplayer' _ => ?_
  obtain rfl : player = player' := Option.some.inj (hplayer.symm.trans hplayer')
  exact .setCall hroom hvisible

theorem callsConsistent_evictVoice {sid userId : String} {m : AssocMap String PlayerSession}
    (hm : m.All fun _ player => player.CallConsistent)
    : (evictVoice sid userId m).All fun _ player => player.CallConsistent := by
  refine hm.mapValues fun _ player _ h => ?_
  split
  . exact .hangUp player
  . exact h

theorem callsConsistent_setsVoice {sid : String} {isVoiceChat : Bool} {callRoom : Option String}
    {m m' : AssocMap String PlayerSession} (h : MovesPlayers.SetsVoice sid isVoiceChat callRoom m m')
    (hm : m.All fun _ player => player.CallConsistent) : m'.All fun _ player => player.CallConsistent := by
  obtain ⟨player, m₁, camera, screen, hplayer, hm₁, hset⟩ := h
  have hconsistent : m₁.All fun _ player => player.CallConsistent := by
    rw [hm₁]
    split
    . exact callsConsistent_evictVoice hm
    . exact hm
  rcases hset with rfl | ⟨hroom, hvisible, rfl⟩
  . exact hconsistent
  . obtain ⟨now, hnow, -, hrooms, hstatus, -⟩ := lookup_of_evicted hplayer hm₁
    refine hconsistent.modify fun now' hnow' _ => ?_
    obtain rfl : now = now' := Option.some.inj (hnow.symm.trans hnow')
    exact .setCall (hrooms ▸ hroom) (hstatus ▸ hvisible)

theorem callsConsistent_step {req : PresenceRequest} (h : Prog.Trace req.handle s tr () s')
    (hspares : ∀ x ∈ tr, req.sparesCalls s x.2) (hs : CallsConsistent s) : CallsConsistent s' := by
  rcases changes_of_trace h with hsame | hchange
  . rwa [CallsConsistent, hsame]
  unfold CallsConsistent
  generalize s'.players = m' at hchange
  cases req with
  | connect sid =>
    obtain rfl := hchange
    exact hs.insert (.fresh sid)
  | disconnect sid =>
    obtain rfl := hchange
    exact hs.erase
  | identify sid d =>
    obtain ⟨user, e, huser, hlabel, rfl⟩ := hchange
    refine hs.modify fun player hplayer h => h.identifyAs ?_
    have hclean := hspares _ hlabel
    simp only [sparesCalls, huser, hplayer, Option.all_some] at hclean
    split
    next hvoice => simpa [hvoice] using hclean
    next hvoice => simpa [hvoice] using hclean
  | join sid d => exact callsConsistent_joins hchange hs
  | leave sid d =>
    obtain ⟨roomId, e, hlabel, rfl⟩ := hchange
    refine hs.modify fun player hplayer h => h.exit ?_
    simpa [sparesCalls, hplayer] using hspares _ hlabel
  | settings sid d =>
    obtain ⟨profile, rfl⟩ := hchange
    exact hs.modify fun _ _ h => h.applySettings d profile _
  | voice sid d => exact callsConsistent_setsVoice hchange hs
  | media sid d =>
    obtain ⟨camera, screen, player, -, -, hset⟩ := hchange
    exact callsConsistent_setsCall hset hs
  | deafened sid d =>
    obtain ⟨player, isDeafened, hplayer, hvoice, rfl⟩ := hchange
    refine hs.modify fun player' hplayer' h => ?_
    obtain rfl : player = player' := Option.some.inj (hplayer.symm.trans hplayer')
    exact h.deafen hvoice isDeafened
  | callAccess sid d => exact hchange.elim
  | kick sid d | ban sid d =>
    obtain ⟨userId, roomId, e, hlabel, rfl⟩ := hchange
    refine hs.mapValues fun sid player hplayer h => ?_
    split
    next huser =>
      have hspared := List.all_eq_true.1 (hspares _ hlabel) player (AssocMap.mem_values_of_lookup hplayer)
      exact h.exit (by simpa [huser] using hspared)
    next => exact h
  | deleteRoom sid d =>
    obtain ⟨roomId, e, hlabel, rfl⟩ := hchange
    refine hs.mapValues fun sid player hplayer h => h.exit ?_
    have hspared := List.all_eq_true.1 (hspares _ hlabel) player (AssocMap.mem_values_of_lookup hplayer)
    simpa using hspared

end PresenceRequest

section Runs

variable {start s : AppState} {log : List (PresenceRequest × List (Env × Label))}

/--
After any requests that spare the calls, the fields of every session that concern calls fit together.
-/
theorem callConsistent_of_served (hstart : start.players = ∅)
    (h : Prog.Served PresenceRequest.handle (fun s req tr => tr.all fun x => req.sparesCalls s x.2) start log s)
    {sid : String} {player : PlayerSession} (hplayer : s.players.lookup sid = some player)
    : player.CallConsistent := by
  refine h.invariant PresenceRequest.CallsConsistent ?_ ?_ sid player hplayer
  . exact fun s req tr s' hrun hspares hs =>
      PresenceRequest.callsConsistent_step hrun (List.all_eq_true.1 hspares) hs
  . rw [PresenceRequest.CallsConsistent, hstart]
    exact .empty

/--
A server with two accounts, to which nobody is connected.
-/
def twoUsers : AppState :=
  { accounts :=
      { users := List.foldr (fun user users => users.insert user.id user) ∅
          [{ id := "1", username := "anna" }, { id := "2", username := "boris" }]
        sessions := List.foldr (fun row rows => rows.insert row.1 row.2) ∅
          [("a", { userId := "1", expiresAt := 1000 }), ("b", { userId := "2", expiresAt := 1000 })] } }

def tokenRequest (token : String) : Json := .obj [("token", .str token)]

def roomRequest (roomId : String) : Json := .obj [("gameId", .str roomId)]

def callRequest (roomId : String) (isVoiceChat : Bool) : Json :=
  .obj [("gameId", .str roomId), ("isVoiceChat", .bool isVoiceChat)]

def callingScript : List (PresenceRequest × Env) :=
  [(.connect "phone", {}), (.identify "phone" (tokenRequest "a"), {}),
    (.join "phone" (roomRequest "lobby123"), {}), (.voice "phone" (callRequest "lobby123" true), {})]

theorem callConsistent_of_served_calling
    : ∃ log s player,
        Prog.Served PresenceRequest.handle (fun s req tr => tr.all fun x => req.sparesCalls s x.2) twoUsers log s
          ∧ s.players.lookup "phone" = some player ∧ player.callRoom = some "lobby123"
          ∧ player.CallConsistent := by
  have hcall : ((Prog.Served.playAll PresenceRequest.handle
      (fun s req tr => tr.all fun x => req.sparesCalls s x.2) callingScript twoUsers).map (·.2)).bind
      (fun s => (s.players.lookup "phone").map (·.callRoom)) = some (some "lobby123") := by decide
  obtain ⟨log, s, hserved, hlookup⟩ := Prog.Served.exists_of_playAll hcall
  obtain ⟨player, hplayer, hroom⟩ := Option.map_eq_some_iff.1 hlookup
  exact ⟨log, s, player, hserved, hplayer, hroom, callConsistent_of_served rfl hserved hplayer⟩

/--
Whoever leaves the room of a call stays in the call.
-/
def leavingScript : List (PresenceRequest × Env) :=
  callingScript ++ [(.leave "phone" (roomRequest "lobby123"), Env.calm)]

theorem not_callConsistent
    : ¬∀ start s log, start.players = ∅ → Prog.Served PresenceRequest.handle (fun _ _ _ => True) start log s →
        ∀ sid player, s.players.lookup sid = some player → player.CallConsistent := by
  intro hall
  have hghost : ((Prog.Served.playAll PresenceRequest.handle (fun _ _ _ => true) leavingScript
      twoUsers).map (·.2)).bind (fun s => (s.players.lookup "phone").map fun player =>
      (player.callRoom, player.rooms)) = some (some "lobby123", []) := by decide
  obtain ⟨log, s, hserved, hlookup⟩ := Prog.Served.exists_of_playAll hghost
  obtain ⟨player, hplayer, hfields⟩ := Option.map_eq_some_iff.1 hlookup
  obtain ⟨hcall, hrooms⟩ := Prod.mk.inj hfields
  have hconsistent := hall twoUsers s log rfl (hserved.mono fun _ _ _ _ => trivial) "phone" player hplayer
  have hroom := (hconsistent.room "lobby123" hcall).2
  rw [hrooms] at hroom
  exact List.not_mem_nil hroom

end Runs

end Lqxp
