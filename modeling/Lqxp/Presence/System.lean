import Lqxp.Websocket.Protocol.Lemmas.Binding

/-!
This module contains the requests that concern presence and calls, served one after the other, and what each of
them does to the sessions.
-/

namespace Lqxp

inductive PresenceRequest where
  | connect (sid : String)
  | disconnect (sid : String)
  | identify (sid : String) (d : Json)
  | join (sid : String) (d : Json)
  | leave (sid : String) (d : Json)
  | settings (sid : String) (d : Json)
  | voice (sid : String) (d : Json)
  | media (sid : String) (d : Json)
  | deafened (sid : String) (d : Json)
  | callAccess (sid : String) (d : Json)
  | kick (sid : String) (d : Json)
  | ban (sid : String) (d : Json)
  | deleteRoom (sid : String) (d : Json)

namespace PresenceRequest

def handle : PresenceRequest → Proto Unit
  | .connect sid => do let _ ← registerConnection sid
  | .disconnect sid => disconnectPlayer sid
  | .identify sid d => do let _ ← identifyPlayer sid d
  | .join sid d => do let _ ← joinGame sid d
  | .leave sid d => do let _ ← leaveGame sid d
  | .settings sid d => do let _ ← updateClientSettings sid d
  | .voice sid d => do let _ ← updateVoiceChat sid d
  | .media sid d => do let _ ← updateCallMediaState sid d
  | .deafened sid d => do let _ ← updateCallDeafenedState sid d
  | .callAccess sid d => do let _ ← setCallAccess sid d
  | .kick sid d => do let _ ← kickMember sid d
  | .ban sid d => do let _ ← banMember sid d
  | .deleteRoom sid d => do let _ ← deleteRoomOp sid d

/--
What a request makes of the sessions, when it changes them.
-/
def Changes (s : AppState) (tr : List (Env × Label)) (m' : AssocMap String PlayerSession)
    : PresenceRequest → Prop
  | .connect sid => m' = s.players.insert sid { id := sid }
  | .disconnect sid => m' = s.players.erase sid
  | .identify sid d => ∃ user e, s.identifiedUser d = some user ∧ (e, .bound sid user.id) ∈ tr
    ∧ m' = s.players.modify sid (s.identified d user e.now)
  | .join sid _ => Joins sid s.players m'
  | .leave sid _ => ∃ roomId e, (e, .left sid roomId) ∈ tr ∧ m' = s.players.modify sid (·.exit roomId)
  | .settings sid d => ∃ profile,
    m' = s.players.modify sid (PlayerSession.applySettings d profile (MovesPlayers.requestedStatus d))
  | .voice sid d =>
    MovesPlayers.SetsVoice sid (MovesPlayers.isVoiceRequest d) (namedCallRoom d) s.players m'
  | .media sid d => ∃ camera screen player, s.players.lookup sid = some player
    ∧ (MovesPlayers.isVoiceRequest d → player.userId ≠ "" → ∀ k other, s.players.lookup k = some other →
      isStaleVoice sid player.userId other = false)
    ∧ MovesPlayers.SetsCall sid (MovesPlayers.isVoiceRequest d) camera screen (namedCallRoom d) s.players m'
  | .deafened sid _ => ∃ player isDeafened, s.players.lookup sid = some player ∧ player.isVoiceChat
    ∧ m' = s.players.modify sid fun player => { player with callDeafened := isDeafened }
  | .callAccess _ _ => False
  | .kick _ _ | .ban _ _ => ∃ userId roomId e, (e, .removed userId roomId) ∈ tr
    ∧ m' = s.players.mapValues fun _ player =>
      if player.userId = userId then player.exit roomId else player
  | .deleteRoom _ _ => ∃ roomId e, (e, .emptied roomId) ∈ tr
    ∧ m' = s.players.mapValues fun _ player => player.exit roomId

variable {s s' : AppState} {tr : List (Env × Label)}

theorem trace_answer {p : Proto Bool} (h : Prog.Trace (do let _ ← p) s tr () s') : ∃ b, Prog.Trace p s tr b s' := by
  obtain ⟨b, s₁, tr₁, tr₂, hrun, hdone, rfl⟩ := Prog.trace_bind_iff.1 h
  obtain ⟨rfl, -, rfl⟩ := Prog.trace_done_iff.1 hdone
  exact ⟨b, by rwa [List.append_nil]⟩

theorem changes_of_removes {m m' : AssocMap String PlayerSession}
    (h : ∃ x ∈ tr, MovesPlayers.Removes m x.2 m')
    : ∃ userId roomId e, (e, .removed userId roomId) ∈ tr
        ∧ m' = m.mapValues fun _ player =>
          if player.userId = userId then player.exit roomId else player := by
  obtain ⟨⟨e, l⟩, hmem, userId, roomId, rfl, hplayers⟩ := h
  exact ⟨userId, roomId, e, hmem, hplayers⟩

theorem changes_of_trace {req : PresenceRequest} (h : Prog.Trace req.handle s tr () s')
    : s'.players = s.players ∨ req.Changes s tr s'.players := by
  cases req with
  | connect sid =>
    obtain ⟨b, h⟩ := trace_answer h
    exact (MovesPlayers.registerConnection sid _ _ _ _ h).imp_right fun ⟨_, _, _, hplayers⟩ => hplayers
  | disconnect sid =>
    exact (MovesPlayers.disconnectPlayer sid _ _ _ _ h).imp_right fun ⟨_, _, _, hplayers⟩ => hplayers
  | identify sid d =>
    obtain ⟨b, h⟩ := trace_answer h
    cases trace_identifyPlayer h with
    | refused hplayers => exact .inl hplayers
    | bound user player e replies huser hplayer hlabel hplayers =>
      exact .inr ⟨user, e, huser, hlabel, hplayers⟩
  | join sid d =>
    obtain ⟨b, h⟩ := trace_answer h
    exact players_joinGame h
  | leave sid d =>
    obtain ⟨b, h⟩ := trace_answer h
    refine (MovesPlayers.leaveGame sid d _ _ _ _ h).imp_right ?_
    rintro ⟨⟨e, l⟩, hmem, roomId, rfl, hplayers⟩
    exact ⟨roomId, e, hmem, hplayers⟩
  | settings sid d =>
    obtain ⟨b, h⟩ := trace_answer h
    exact (MovesPlayers.updateClientSettings sid d _ _ _ _ h).imp_right fun ⟨_, _, hplayers⟩ => hplayers
  | voice sid d =>
    obtain ⟨b, h⟩ := trace_answer h
    exact (MovesPlayers.updateVoiceChat sid d _ _ _ _ h).imp_right fun ⟨_, _, hplayers⟩ => hplayers
  | media sid d =>
    obtain ⟨b, h⟩ := trace_answer h
    exact (MovesPlayers.updateCallMediaState sid d _ _ _ _ h).imp_right fun ⟨_, _, hplayers⟩ => hplayers
  | deafened sid d =>
    obtain ⟨b, h⟩ := trace_answer h
    exact (MovesPlayers.updateCallDeafenedState sid d _ _ _ _ h).imp_right fun ⟨_, _, hplayers⟩ => hplayers
  | callAccess sid d =>
    obtain ⟨b, h⟩ := trace_answer h
    exact (MovesPlayers.setCallAccess sid d _ _ _ _ h).imp_right fun ⟨_, _, h⟩ => h.elim
  | kick sid d =>
    obtain ⟨b, h⟩ := trace_answer h
    exact (MovesPlayers.kickMember sid d _ _ _ _ h).imp_right changes_of_removes
  | ban sid d =>
    obtain ⟨b, h⟩ := trace_answer h
    exact (MovesPlayers.banMember sid d _ _ _ _ h).imp_right changes_of_removes
  | deleteRoom sid d =>
    obtain ⟨b, h⟩ := trace_answer h
    refine (MovesPlayers.deleteRoomOp sid d _ _ _ _ h).imp_right ?_
    rintro ⟨⟨e, l⟩, hmem, roomId, rfl, hplayers⟩
    exact ⟨roomId, e, hmem, hplayers⟩

end PresenceRequest

theorem lookup_of_evicted {m m₁ : AssocMap String PlayerSession} {sid userId : String} {player : PlayerSession}
    {c : Prop} [Decidable c] (hplayer : m.lookup sid = some player)
    (hm₁ : m₁ = if c then evictVoice sid userId m else m)
    : ∃ now, m₁.lookup sid = some now ∧ now.userId = player.userId ∧ now.rooms = player.rooms
        ∧ now.status = player.status ∧ ∀ roomId, now.isCallInRoom roomId → player.isCallInRoom roomId := by
  subst hm₁
  split
  . rw [evictVoice, AssocMap.lookup_mapValues, hplayer]
    refine ⟨_, rfl, ?_⟩
    dsimp only
    split
    . exact ⟨rfl, rfl, rfl, fun _ h => absurd h Bool.false_ne_true⟩
    . exact ⟨rfl, rfl, rfl, fun _ h => h⟩
  . exact ⟨player, hplayer, rfl, rfl, rfl, fun _ h => h⟩

end Lqxp
