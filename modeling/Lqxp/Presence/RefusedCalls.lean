import Lqxp.Presence.ClosedCalls
import Lqxp.Prog.Emits
import Lqxp.Websocket.Protocol.Lemmas.Replies

/-!
This module contains what a refused op 98 does all the same, and when that is nothing.
-/

namespace Lqxp

section Effects

/--
What a session shows of its calls and its rooms.
-/
def PlayerSession.callState (player : PlayerSession)
    : Bool × Option String × Bool × Bool × Bool × List String :=
  (player.isVoiceChat, player.callRoom, player.callCamera, player.callScreen, player.callDeafened, player.rooms)

/--
The request is answered with an error.
-/
def VoiceRefused (sid : String) (tr : List (Env × Label)) : Prop :=
  ∃ m ∈ queued tr, m.1 = sid ∧ isError 98 m.2 = true

/--
The calls are as before, and no other session hears of anything.
-/
structure CallsUnchanged (s : AppState) (sid : String) (tr : List (Env × Label)) (s' : AppState) : Prop where
  sessions (k : String)
    : (s'.players.lookup k).map PlayerSession.callState = (s.players.lookup k).map PlayerSession.callState
  overrides (roomId : String) : roomId ∈ s'.callAccessOverrides ↔ roomId ∈ s.callAccessOverrides
  unheard : ∀ m ∈ queued tr, m.1 = sid

variable (s : AppState) (sid : String) (d : Json) (player : PlayerSession)

/--
The last check of op 98 refuses the session.
-/
def RefusedAtEnd : Prop :=
  MovesPlayers.isVoiceRequest d = true ∧ player.status = .invisible
    ∨ ∃ roomId, namedCallRoom d = some roomId ∧ roomId ∉ player.rooms

/--
Another session of the account is in a call, and is taken out of it before the last check.
-/
structure EvictsOther : Prop where
  voice : MovesPlayers.isVoiceRequest d = true
  account : player.userId ≠ ""
  other : ∃ k other, s.players.lookup k = some other ∧ isStaleVoice sid player.userId other = true

/--
An administrator of the room closes its calls to the members before the last check, where they have been open or
somebody hears of it.
-/
structure ClosesCalls : Prop where
  voice : MovesPlayers.isVoiceRequest d = false
  room : ∃ roomId room, namedCallRoom d = some roomId ∧ s.database.lookup roomId = some room
    ∧ isRoomAdmin room player.userId = true
    ∧ (roomId ∈ s.callAccessOverrides
      ∨ ∃ k other, s.players.lookup k = some other ∧ roomId ∈ other.rooms ∧ other.id ≠ sid)

end Effects

section Pieces

variable {s s' : AppState} {sid userId : String} {tr : List (Env × Label)} {callRoom : Option String}

theorem queued_callsSwitchedOff {isVoiceChat off : Bool}
    (h : Prog.Trace (callsSwitchedOff isVoiceChat) s tr off s')
    : queued tr = [] ∧ s' = s := by
  unfold callsSwitchedOff at h
  split at h
  . obtain ⟨enabled, s₁, tr₁, tr₂, hlook, hdone, rfl⟩ := Prog.trace_bind_iff.1 h
    obtain ⟨e, rfl, rfl, rfl⟩ := trace_look hlook
    obtain ⟨rfl, rfl, rfl⟩ := Prog.trace_done_iff.1 hdone
    exact ⟨rfl, rfl⟩
  . obtain ⟨rfl, rfl, rfl⟩ := Prog.trace_done_iff.1 h
    exact ⟨rfl, rfl⟩

theorem queued_voiceRefused {refused : Bool} (h : Prog.Trace (voiceRefused userId callRoom) s tr refused s')
    : queued tr = [] ∧ s' = s := by
  unfold voiceRefused at h
  split at h
  . obtain ⟨record, s₁, tr₁, tr₂, hread, hrest, rfl⟩ := Prog.trace_bind_iff.1 h
    obtain ⟨e, rfl, -, rfl⟩ := Prog.trace_atom_iff.1 hread
    clear hread
    split at hrest
    . obtain ⟨overridden, s₂, tr₃, tr₄, hlook, hdone, rfl⟩ := Prog.trace_bind_iff.1 hrest
      obtain ⟨e', rfl, rfl, rfl⟩ := trace_look hlook
      obtain ⟨rfl, rfl, rfl⟩ := Prog.trace_done_iff.1 hdone
      exact ⟨rfl, rfl⟩
    . obtain ⟨rfl, rfl, rfl⟩ := Prog.trace_done_iff.1 hrest
      exact ⟨rfl, rfl⟩
  . obtain ⟨rfl, rfl, rfl⟩ := Prog.trace_done_iff.1 h
    exact ⟨rfl, rfl⟩

/--
What a limit leaves alone.
-/
structure SameButLimits (s s' : AppState) : Prop where
  players : s'.players = s.players
  database : s'.database = s.database
  overrides : s'.callAccessOverrides = s.callAccessOverrides

theorem queued_hitVoiceJoin {isJoin hit : Bool} (h : Prog.Trace (hitVoiceJoin sid userId isJoin) s tr hit s')
    : queued tr = [] ∧ SameButLimits s s' := by
  unfold hitVoiceJoin at h
  split at h
  . obtain ⟨e, rfl, -, rfl⟩ := trace_hitRateLimit h
    exact ⟨rfl, rfl, rfl, rfl⟩
  . obtain ⟨rfl, -, rfl⟩ := Prog.trace_done_iff.1 h
    exact ⟨rfl, rfl, rfl, rfl⟩

/--
What closing the calls of a room does, if it does something.
-/
structure Closed (s : AppState) (userId : String) (callRoom : Option String) (tr : List (Env × Label))
    (s' : AppState) (roomId : String) (room : RoomRecord) : Prop where
  named : callRoom = some roomId
  stored : s.database.lookup roomId = some room
  admin : isRoomAdmin room userId = true
  state : s' = { s with callAccessOverrides := s.callAccessOverrides.filter (· ≠ roomId) }
  queued : queued tr = ((s.players.values.filter fun player => player.rooms.contains roomId).map (·.id)).map
    fun k => (k, message 51 [("gameId", .str roomId), ("allowMembers", .bool false)])

theorem trace_closeCallAccess {u : Unit} (h : Prog.Trace (closeCallAccess userId callRoom) s tr u s')
    : (queued tr = [] ∧ s' = s) ∨ ∃ roomId room, Closed s userId callRoom tr s' roomId room := by
  unfold closeCallAccess at h
  split at h
  next roomId =>
    obtain ⟨record, s₁, tr₁, tr₂, hread, hrest, rfl⟩ := Prog.trace_bind_iff.1 h
    obtain ⟨e, rfl, hrecord, rfl⟩ := Prog.trace_atom_iff.1 hread
    clear hread
    split at hrest
    next room =>
      dsimp only at hrecord
      have hstored : s₁.database.lookup roomId = some room := by
        rw [Env.readRoom] at hrecord
        split at hrecord
        . contradiction
        . exact hrecord.symm
      split at hrest
      next hadmin =>
        obtain ⟨u, s₂, tr₃, tr₄, hfilter, hbroadcast, rfl⟩ := Prog.trace_bind_iff.1 hrest
        obtain ⟨e', rfl, -, rfl⟩ := Prog.trace_atom_iff.1 hfilter
        obtain ⟨e'', rfl, -, rfl⟩ := Prog.trace_atom_iff.1 hbroadcast
        exact .inr ⟨roomId, room, rfl, hstored, hadmin, rfl, by simp [Label.queued]⟩
      next =>
        obtain ⟨rfl, -, rfl⟩ := Prog.trace_done_iff.1 hrest
        exact .inl ⟨rfl, rfl⟩
    next =>
      obtain ⟨rfl, -, rfl⟩ := Prog.trace_done_iff.1 hrest
      exact .inl ⟨rfl, rfl⟩
  next =>
    obtain ⟨rfl, -, rfl⟩ := Prog.trace_done_iff.1 h
    exact .inl ⟨rfl, rfl⟩

end Pieces

section Accepted

/--
A piece of a handler that tells nobody that op 98 has failed.
-/
abbrev NoError (p : Proto α) : Prop := p.Emits fun l => ∀ m ∈ l.queued, isError 98 m.2 = false

theorem noError_broadcastToRoom {gameId : String} {payload : Json} (h : isError 98 payload = false)
    : NoError (broadcastToRoom gameId payload) := by
  refine .atom fun e s m hm => ?_
  obtain ⟨k, -, rfl⟩ := List.mem_map.1 hm
  exact h

theorem noError_broadcastVoice {isVoiceChat : Bool} {media : List (String × Json)} (player : PlayerSession)
    (hmedia : media.lookup "error" = none) (rooms : List String)
    : NoError (broadcastVoice isVoiceChat media player rooms) := by
  induction rooms with
  | nil => exact .pure _
  | cons gameId rooms ih =>
    refine .bind (noError_broadcastToRoom ?_) fun _ => ih
    rw [isError_message]
    simp [Json.getStr?, Json.get?, List.lookup_cons, hmedia]

theorem noError_broadcastEvicted (stale : List PlayerSession) : NoError (broadcastEvicted stale) := by
  induction stale with
  | nil => exact .pure _
  | cons player stale ih => exact .bind (noError_broadcastVoice player rfl _) fun _ => ih

theorem noError_respondOk (sid : String) (reqId : Option String) : NoError (respondOk sid 98 [] reqId) := by
  refine .bind (.atom fun e s => ?_) fun _ => .pure _
  split
  . intro m hm
    obtain rfl := List.mem_singleton.1 hm
    rw [isError_withRequestId, isError_message]
    rfl
  . exact fun _ hm => absurd hm List.not_mem_nil

theorem NoError.queued {p : Proto α} {s s' : AppState} {tr : List (Env × Label)} {a : α} (h : NoError p)
    (run : Prog.Trace p s tr a s') : ∀ m ∈ queued tr, isError 98 m.2 = false := by
  intro m hm
  obtain ⟨x, hx, hm⟩ := List.mem_flatMap.1 hm
  exact h.of_trace run x hx m hm

end Accepted

section Outcomes

variable {s s' : AppState} {sid : String} {d : Json} {tr : List (Env × Label)} {callRoom : Option String}

/--
The sessions when the other ones of an account have been taken out of their calls, if the request is a join.
-/
def AppState.evicted (s : AppState) (sid : String) (isVoiceChat : Bool) (player : PlayerSession)
    : AssocMap String PlayerSession :=
  if isVoiceChat && player.userId ≠ "" then evictVoice sid player.userId s.players else s.players

theorem setCallIn_error {isVoiceChat camera screen : Bool} {player : PlayerSession}
    {m m' : AssocMap String PlayerSession} {text : String}
    (h : setCallIn sid isVoiceChat camera screen callRoom player m = (.error text, m'))
    : m' = m ∧ ∃ roomId, callRoom = some roomId ∧ roomId ∉ player.rooms := by
  cases callRoom with
  | none =>
    rw [setCallIn] at h
    simp at h
  | some roomId =>
    by_cases hroom : roomId ∈ player.rooms
    . simp [setCallIn, hroom] at h
    . simp only [setCallIn, List.contains_eq_mem, hroom, decide_false, Bool.false_eq_true, if_false,
        Prod.mk.injEq] at h
      exact ⟨h.2.symm, roomId, rfl, hroom⟩

theorem queued_setVoice {isVoiceChat camera screen : Bool}
    {result : Except String (PlayerSession × List String × List PlayerSession)}
    (h : Prog.Trace (setVoice sid isVoiceChat camera screen callRoom) s tr result s')
    : queued tr = [] := by
  obtain ⟨e, rfl, -, -⟩ := Prog.trace_atom_iff.1 h
  cases hplayer : s.players.lookup sid with
  | none => rfl
  | some player =>
    by_cases hinvisible : (isVoiceChat && decide (player.status = .invisible)) = true
    . simp only [if_pos hinvisible, queued_cons, queued_nil, Label.queued_quiet, List.append_nil]
    . simp only [if_neg hinvisible, queued_cons, queued_nil, Label.queued_quiet, List.append_nil]

theorem trace_setVoice_error {isVoiceChat camera screen : Bool} {text : String}
    (h : Prog.Trace (setVoice sid isVoiceChat camera screen callRoom) s tr (.error text) s')
    : (s.players.lookup sid = none ∧ s' = s)
        ∨ ∃ player, s.players.lookup sid = some player
          ∧ (isVoiceChat = true ∧ player.status = .invisible
            ∨ ∃ roomId, callRoom = some roomId ∧ roomId ∉ player.rooms)
          ∧ s' = { s with players := s.evicted sid isVoiceChat player } := by
  obtain ⟨e, rfl, hresult, rfl⟩ := Prog.trace_atom_iff.1 h
  clear h
  cases hplayer : s.players.lookup sid with
  | none => exact .inl ⟨rfl, rfl⟩
  | some player =>
    simp only [hplayer] at hresult ⊢
    by_cases hinvisible : (isVoiceChat && decide (player.status = .invisible)) = true
    . simp only [if_pos hinvisible]
      refine .inr ⟨player, rfl, .inl ?_, rfl⟩
      simpa using hinvisible
    . simp only [if_neg hinvisible] at hresult ⊢
      refine .inr ⟨player, rfl, ?_⟩
      cases hcall : setCallIn sid isVoiceChat camera screen callRoom player (s.evicted sid isVoiceChat player) with
      | mk result players =>
        rw [AppState.evicted] at hcall
        simp only [hcall] at hresult ⊢
        cases result with
        | error text' =>
          obtain ⟨rfl, hroom⟩ := setCallIn_error hcall
          exact ⟨.inr hroom, rfl⟩
        | ok call => contradiction

theorem trace_completeVoice {isVoiceChat camera screen b : Bool} {reqId : Option String}
    (h : Prog.Trace (completeVoice sid isVoiceChat camera screen callRoom reqId) s tr b s')
    : (∀ m ∈ queued tr, isError 98 m.2 = false)
        ∨ ∃ player, s.players.lookup sid = some player
          ∧ (isVoiceChat = true ∧ player.status = .invisible
            ∨ ∃ roomId, callRoom = some roomId ∧ roomId ∉ player.rooms)
          ∧ s' = { s with players := s.evicted sid isVoiceChat player }
          ∧ ∀ m ∈ queued tr, m.1 = sid := by
  obtain ⟨result, s₁, tr₁, tr₂, hset, hrest, rfl⟩ := Prog.trace_bind_iff.1 h
  rw [queued_append, queued_setVoice hset, List.nil_append]
  cases result with
  | error text =>
    obtain ⟨e, rfl, rfl⟩ := trace_respondError hrest
    rw [queued_cons, queued_nil, List.append_nil]
    obtain ⟨hnone, rfl⟩ | ⟨player, hplayer, hlate, rfl⟩ := trace_setVoice_error hset
    . left
      simp [AppState.replyLabel, hnone]
    . exact .inr ⟨player, hplayer, hlate, rfl, fun m hm => by rw [AppState.mem_queued_replyLabel hm]⟩
  | ok call =>
    obtain ⟨player, rooms, stale⟩ := call
    have haccepted : NoError (do
        broadcastVoice isVoiceChat
          [("media", callMediaJson player.isVoiceChat player.callCamera player.callScreen)] player rooms
        broadcastEvicted stale
        respondOk sid 98 [] reqId) :=
      .bind (noError_broadcastVoice player rfl _) fun _ =>
        .bind (noError_broadcastEvicted _) fun _ => noError_respondOk _ _
    exact .inl (haccepted.queued hrest)

/--
How op 98 ends: without any effect on others, after the last check has refused the session, or without an error.
-/
inductive VoiceOutcome (s : AppState) (sid : String) (d : Json) (tr : List (Env × Label)) (s' : AppState) : Prop where
  | unchanged (hplayers : s'.players = s.players) (hoverrides : s'.callAccessOverrides = s.callAccessOverrides)
      (hqueued : ∀ m ∈ queued tr, m.1 = sid)
  | refused (player : PlayerSession) (hplayer : s.players.lookup sid = some player) (hlate : RefusedAtEnd d player)
      (hplayers : s'.players = s.evicted sid (MovesPlayers.isVoiceRequest d) player)
      (hoverrides : s'.callAccessOverrides = s.callAccessOverrides) (hqueued : ∀ m ∈ queued tr, m.1 = sid)
  | closed (player : PlayerSession) (hplayer : s.players.lookup sid = some player) (hlate : RefusedAtEnd d player)
      (hleave : MovesPlayers.isVoiceRequest d = false) (hplayers : s'.players = s.players) (roomId : String)
      (room : RoomRecord) (hnamed : namedCallRoom d = some roomId) (hstored : s.database.lookup roomId = some room)
      (hadmin : isRoomAdmin room player.userId = true)
      (hoverrides : s'.callAccessOverrides = s.callAccessOverrides.filter (· ≠ roomId))
      (hqueued : ∀ m ∈ queued tr, m.1 = sid ∨ m.1 ∈ (s.players.values.filter (·.rooms.contains roomId)).map (·.id))
  | accepted (hqueued : ∀ m ∈ queued tr, isError 98 m.2 = false)

theorem VoiceOutcome.of_respondError {s₁ : AppState} {text : String} {reqId : Option String} {b : Bool}
    (h : Prog.Trace (respondError sid 98 text reqId) s₁ tr b s') (hsame : SameButLimits s s₁)
    : VoiceOutcome s sid d tr s' := by
  obtain ⟨e, rfl, rfl⟩ := trace_respondError h
  refine .unchanged hsame.players hsame.overrides fun m hm => ?_
  rw [queued_cons, queued_nil, List.append_nil] at hm
  rw [AppState.mem_queued_replyLabel hm]

theorem VoiceOutcome.prepend {tr₁ : List (Env × Label)} (h : VoiceOutcome s sid d tr s') (hquiet : queued tr₁ = [])
    : VoiceOutcome s sid d (tr₁ ++ tr) s' := by
  have hqueued : queued (tr₁ ++ tr) = queued tr := by rw [queued_append, hquiet, List.nil_append]
  cases h with
  | unchanged hplayers hoverrides hsid => exact .unchanged hplayers hoverrides (hqueued ▸ hsid)
  | refused player hplayer hlate hplayers hoverrides hsid =>
    exact .refused player hplayer hlate hplayers hoverrides (hqueued ▸ hsid)
  | closed player hplayer hlate hleave hplayers roomId room hnamed hstored hadmin hoverrides hsid =>
    exact .closed player hplayer hlate hleave hplayers roomId room hnamed hstored hadmin hoverrides (hqueued ▸ hsid)
  | accepted haccepted => exact .accepted (hqueued ▸ haccepted)

theorem evicted_congr {s₁ : AppState} (h : s₁.players = s.players) (isVoiceChat : Bool) (player : PlayerSession)
    : s₁.evicted sid isVoiceChat player = s.evicted sid isVoiceChat player := by
  rw [AppState.evicted, AppState.evicted, h]

theorem VoiceOutcome.of_completeVoice {s₁ : AppState} {camera screen b : Bool} {reqId : Option String}
    (h : Prog.Trace
      (completeVoice sid (MovesPlayers.isVoiceRequest d) camera screen (namedCallRoom d) reqId) s₁ tr b s')
    (hsame : SameButLimits s s₁) : VoiceOutcome s sid d tr s' := by
  obtain haccepted | ⟨player, hplayer, hlate, rfl, hqueued⟩ := trace_completeVoice h
  . exact .accepted haccepted
  . rw [hsame.players] at hplayer
    exact .refused player hplayer hlate (evicted_congr hsame.players _ _) hsame.overrides hqueued

theorem VoiceOutcome.of_leave {s₁ : AppState} {userId : String} {camera screen b : Bool} {reqId : Option String}
    (h : Prog.Trace (do
      closeCallAccess userId (namedCallRoom d)
      completeVoice sid false camera screen (namedCallRoom d) reqId) s₁ tr b s')
    (hsame : SameButLimits s s₁) (hleave : MovesPlayers.isVoiceRequest d = false)
    (huser : ∀ player, s.players.lookup sid = some player → player.userId = userId)
    : VoiceOutcome s sid d tr s' := by
  obtain ⟨u, s₂, tr₁, tr₂, hclose, hcomplete, rfl⟩ := Prog.trace_bind_iff.1 h
  obtain ⟨hquiet, rfl⟩ | ⟨roomId, room, hclosed⟩ := trace_closeCallAccess hclose
  . rw [← hleave] at hcomplete
    exact .prepend (.of_completeVoice hcomplete hsame) hquiet
  have hplayers₂ : s₂.players = s.players := by rw [hclosed.state, hsame.players]
  have hoverrides₂ : s₂.callAccessOverrides = s.callAccessOverrides.filter (· ≠ roomId) := by
    rw [hclosed.state, hsame.overrides]
  have hbroadcast : ∀ m ∈ queued tr₁, isError 98 m.2 = false
      ∧ m.1 ∈ (s.players.values.filter (·.rooms.contains roomId)).map (·.id) := by
    intro m hm
    rw [hclosed.queued, hsame.players] at hm
    obtain ⟨k, hk, rfl⟩ := List.mem_map.1 hm
    refine ⟨?_, hk⟩
    rw [isError_message]
    rfl
  obtain haccepted | ⟨player, hplayer, hlate, rfl, hqueued⟩ := trace_completeVoice hcomplete
  . refine .accepted fun m hm => ?_
    rw [queued_append, List.mem_append] at hm
    exact hm.elim (fun hm => (hbroadcast m hm).1) (haccepted m)
  . rw [hplayers₂] at hplayer
    have hroom : RefusedAtEnd d player := hlate.imp (fun h => absurd h.1 Bool.false_ne_true) id
    refine .closed player hplayer hroom hleave hplayers₂ roomId room hclosed.named (hsame.database ▸ hclosed.stored)
      (huser player hplayer ▸ hclosed.admin) hoverrides₂ fun m hm => ?_
    rw [queued_append, List.mem_append] at hm
    exact hm.elim (fun hm => .inr (hbroadcast m hm).2) fun hm => .inl (hqueued m hm)

theorem outcome_updateVoiceChat {b : Bool} (h : Prog.Trace (updateVoiceChat sid d) s tr b s')
    : VoiceOutcome s sid d tr s' := by
  obtain ⟨limited, s₁, tr₁, tr₂, hlimit, h₁, rfl⟩ := Prog.trace_bind_iff.1 h
  obtain ⟨e, rfl, -, rfl⟩ := trace_hitRateLimit hlimit
  clear h hlimit
  refine .prepend ?_ rfl
  dsimp only at h₁
  split at h₁
  . exact .of_respondError h₁ ⟨rfl, rfl, rfl⟩
  obtain ⟨off, s₂, tr₃, tr₄, hoff, h₂, rfl⟩ := Prog.trace_bind_iff.1 h₁
  obtain ⟨hquiet₂, rfl⟩ := queued_callsSwitchedOff hoff
  clear h₁ hoff
  refine .prepend ?_ hquiet₂
  split at h₂
  . exact .of_respondError h₂ ⟨rfl, rfl, rfl⟩
  obtain ⟨⟨userId, alreadyInVoice⟩, s₃, tr₅, tr₆, hlook, h₃, rfl⟩ := Prog.trace_bind_iff.1 h₂
  obtain ⟨e', rfl, hsession, rfl⟩ := trace_look hlook
  clear h₂ hlook
  refine .prepend ?_ rfl
  have huser (player : PlayerSession) (hplayer : s.players.lookup sid = some player) : player.userId = userId := by
    simp only [hplayer] at hsession
    exact (Prod.mk.inj hsession).1.symm
  obtain ⟨limited, s₄, tr₇, tr₈, hjoin, h₄, rfl⟩ := Prog.trace_bind_iff.1 h₃
  obtain ⟨hquiet₄, hsame⟩ := queued_hitVoiceJoin hjoin
  clear h₃ hjoin
  have hsame : SameButLimits s s₄ := ⟨hsame.players, hsame.database, hsame.overrides⟩
  refine .prepend ?_ hquiet₄
  split at h₄
  . exact .of_respondError h₄ hsame
  split at h₄
  next hvoice =>
    obtain ⟨refused, s₅, tr₉, tr₁₀, hrefused, h₅, rfl⟩ := Prog.trace_bind_iff.1 h₄
    obtain ⟨hquiet₅, rfl⟩ := queued_voiceRefused hrefused
    refine .prepend ?_ hquiet₅
    split at h₅
    . exact .of_respondError h₅ hsame
    . exact .of_completeVoice h₅ hsame
  next hvoice =>
    have hleave : MovesPlayers.isVoiceRequest d = false := Bool.not_eq_true _ ▸ hvoice
    have hvoice : (d.getBool? "isVoiceChat").getD false = false := hleave
    rw [hvoice] at h₄
    exact .of_leave h₄ hsame hleave huser

end Outcomes

section Runs

variable {s s' : AppState} {sid : String} {d : Json} {player : PlayerSession} {callRoom : Option String}

theorem exists_trace_setVoice {isVoiceChat : Bool} (camera screen : Bool) (e : Env)
    (hplayer : s.players.lookup sid = some player)
    (hlate : isVoiceChat = true ∧ player.status = .invisible ∨ ∃ roomId, callRoom = some roomId ∧ roomId ∉ player.rooms)
    : ∃ text, Prog.Trace (setVoice sid isVoiceChat camera screen callRoom) s [(e, .quiet)] (.error text)
        { s with players := s.evicted sid isVoiceChat player } := by
  by_cases hinvisible : (isVoiceChat && decide (player.status = .invisible)) = true
  . refine ⟨"Invisible users cannot join voice chat", Prog.trace_atom_iff.2 ⟨e, ?_⟩⟩
    simp only [hplayer, if_pos hinvisible]
    exact ⟨trivial, trivial, rfl⟩
  . obtain hvisible | ⟨roomId, rfl, hroom⟩ := hlate
    . simp [hvisible] at hinvisible
    . refine ⟨"Not a member of this room", Prog.trace_atom_iff.2 ⟨e, ?_⟩⟩
      simp only [hplayer, if_neg hinvisible, setCallIn, List.contains_eq_mem, hroom, decide_false, Bool.false_eq_true,
        if_false]
      exact ⟨trivial, rfl, rfl⟩

theorem lookup_evicted (hplayer : s.players.lookup sid = some player) (isVoiceChat : Bool)
    : ∃ now, (s.evicted sid isVoiceChat player).lookup sid = some now := by
  obtain ⟨now, hnow, -⟩ : ∃ now, (s.evicted sid isVoiceChat player).lookup sid = some now ∧ _ :=
    lookup_of_evicted hplayer rfl
  exact ⟨now, hnow⟩

theorem exists_trace_completeVoice {isVoiceChat : Bool} (camera screen : Bool) (reqId : Option String)
    (hplayer : s.players.lookup sid = some player)
    (hlate : isVoiceChat = true ∧ player.status = .invisible ∨ ∃ roomId, callRoom = some roomId ∧ roomId ∉ player.rooms)
    : ∃ tr text, Prog.Trace (completeVoice sid isVoiceChat camera screen callRoom reqId) s tr false
          { s with players := s.evicted sid isVoiceChat player }
        ∧ queued tr = [(sid, withRequestId (message 98 [("error", .str text)]) reqId)] := by
  obtain ⟨text, hset⟩ := exists_trace_setVoice camera screen .calm hplayer hlate
  obtain ⟨now, hnow⟩ := lookup_evicted hplayer isVoiceChat
  let payload := withRequestId (message 98 [("error", .str text)]) reqId
  have hreply : Prog.Trace (respondError sid 98 text reqId) { s with players := s.evicted sid isVoiceChat player }
      [(.calm, .reply sid payload)] false { s with players := s.evicted sid isVoiceChat player } := by
    refine Prog.trace_bind_iff.2 ⟨(), { s with players := s.evicted sid isVoiceChat player },
      [(.calm, .reply sid payload)], [], Prog.trace_atom_iff.2 ⟨.calm, ?_⟩, .done _ _, rfl⟩
    simp only [hnow]
    exact ⟨rfl, trivial, trivial⟩
  exact ⟨_, text, Prog.trace_bind_iff.2 ⟨_, _, _, _, hset, hreply, rfl⟩, rfl⟩

def voiceTail (sid : String) (d : Json) (userId : String) : Proto Bool :=
  let isVoiceChat := (d.getBool? "isVoiceChat").getD false
  let (_, camera, screen) := normalizeCallMedia (d.get? "media") isVoiceChat
  if isVoiceChat then do
    if ← voiceRefused userId (namedCallRoom d) then
      respondError sid 98 "Calls are disabled in this room" (requestId d)
    else
      completeVoice sid isVoiceChat camera screen (namedCallRoom d) (requestId d)
  else do
    closeCallAccess userId (namedCallRoom d)
    completeVoice sid isVoiceChat camera screen (namedCallRoom d) (requestId d)

theorem exists_trace_hitRateLimit (key : String) {limit windowMs now : Nat} (hlimit : 1 ≤ limit)
    (hover : ∀ bucket, s.rateLimits.lookup key = some bucket → windowMs < now - bucket.windowStartMs)
    : ∃ rateLimits, Prog.Trace (hitRateLimit key limit windowMs) s [({ now }, .quiet)] false { s with rateLimits }
        ∧ ∀ key' bucket, key' ≠ key → rateLimits.lookup key' = some bucket → s.rateLimits.lookup key' = some bucket := by
  refine ⟨_, Prog.trace_atom_iff.2 ⟨{ now }, rfl, ?_, rfl⟩,
    fun key' bucket hkey hbucket => lookup_rateLimitHit_of_ne now limit windowMs hkey hbucket⟩
  exact (rateLimitHit_of_over hlimit hover).symm

theorem exists_trace_hitVoiceJoin {now : Nat} (userId : String) (isJoin : Bool)
    (hover : ∀ key bucket, key ≠ "voice_chat:session:" ++ sid → s.rateLimits.lookup key = some bucket →
      60000 < now - bucket.windowStartMs)
    : ∃ tr s₁, Prog.Trace (hitVoiceJoin sid userId isJoin) s tr false s₁ := by
  unfold hitVoiceJoin
  split
  . dsimp only
    generalize hkey : (if userId = "" then "voice_join:session:" ++ sid else "voice_join:user:" ++ userId) = key
    have hne : key ≠ "voice_chat:session:" ++ sid := by
      rw [← hkey]
      split <;> exact Text.append_ne_append 16 (by decide) (by decide) (by decide) _ _
    obtain ⟨rateLimits, hlimit, -⟩ : ∃ rateLimits, Prog.Trace (hitRateLimit key voiceJoinsPerMinute 60000) s
        [({ now }, .quiet)] false { s with rateLimits } ∧ _ :=
      exists_trace_hitRateLimit key (by decide) fun bucket => hover key bucket hne
    exact ⟨_, _, hlimit⟩
  . exact ⟨[], s, .done _ _⟩

theorem exists_trace_limits (hplayer : s.players.lookup sid = some player)
    : ∃ s₁, SameButLimits s s₁ ∧ ∀ tr b s', Prog.Trace (voiceTail sid d player.userId) s₁ tr b s' →
        ∃ tr', Prog.Trace (updateVoiceChat sid d) s tr' b s' ∧ queued tr' = queued tr := by
  obtain ⟨now, hlate⟩ := exists_late s.rateLimits
  obtain ⟨limits₁, hlimit, hkept⟩ : ∃ rateLimits, Prog.Trace (hitRateLimit ("voice_chat:session:" ++ sid) 10 5000) s
      [({ now }, .quiet)] false { s with rateLimits } ∧ _ :=
    exists_trace_hitRateLimit _ (by decide) fun bucket hbucket => Nat.lt_trans (by decide) (hlate _ bucket hbucket)
  have hoff : Prog.Trace (callsSwitchedOff (MovesPlayers.isVoiceRequest d)) { s with rateLimits := limits₁ }
      (if MovesPlayers.isVoiceRequest d then [({ dbFails := true }, .quiet)] else []) false
      { s with rateLimits := limits₁ } := by
    unfold callsSwitchedOff
    split
    . exact Prog.trace_bind_iff.2 ⟨true, _, [({ dbFails := true }, .quiet)], [],
        Prog.trace_atom_iff.2 ⟨{ dbFails := true }, rfl, rfl, rfl⟩, .done _ _, rfl⟩
    . exact .done _ _
  obtain ⟨tr₄, s₄, hjoin⟩ : ∃ tr s₁, Prog.Trace (hitVoiceJoin sid player.userId
      (MovesPlayers.isVoiceRequest d && !player.isVoiceChat)) { s with rateLimits := limits₁ } tr false s₁ :=
    exists_trace_hitVoiceJoin _ _ fun key bucket hkey hbucket => hlate key bucket (hkept key bucket hkey hbucket)
  obtain ⟨hquiet, hsame⟩ := queued_hitVoiceJoin hjoin
  refine ⟨s₄, ⟨hsame.players, hsame.database, hsame.overrides⟩, fun tr b s' htail => ?_⟩
  have hlook : Prog.Trace (look fun _ s => ((s.players.lookup sid).map fun player =>
      (player.userId, player.isVoiceChat)).getD ("", false)) { s with rateLimits := limits₁ } [(.calm, .quiet)]
      (player.userId, player.isVoiceChat) { s with rateLimits := limits₁ } := by
    refine Prog.trace_atom_iff.2 ⟨.calm, rfl, ?_, rfl⟩
    simp only [hplayer]
    rfl
  let trOff : List (Env × Label) :=
    if MovesPlayers.isVoiceRequest d then [({ dbFails := true }, .quiet)] else []
  refine ⟨[(({ now } : Env), .quiet)] ++ (trOff ++ ([(.calm, .quiet)] ++ (tr₄ ++ tr))), ?_, ?_⟩
  . refine Prog.trace_bind_iff.2 ⟨false, _, _, _, hlimit, ?_, rfl⟩
    refine Prog.trace_bind_iff.2 ⟨false, _, _, _, hoff, ?_, rfl⟩
    refine Prog.trace_bind_iff.2 ⟨_, _, _, _, hlook, ?_, rfl⟩
    exact Prog.trace_bind_iff.2 ⟨false, _, _, _, hjoin, htail, rfl⟩
  . have hflag : queued trOff = [] := by
      dsimp only [trOff]
      split
      . rfl
      . rfl
    rw [queued_append, queued_append, queued_append, queued_append, hflag, hquiet]
    rfl

theorem voiceRefused_of_queued {tr : List (Env × Label)} {text : String} {reqId : Option String}
    (h : (sid, withRequestId (message 98 [("error", .str text)]) reqId) ∈ queued tr)
    : VoiceRefused sid tr := by
  refine ⟨_, h, rfl, ?_⟩
  rw [isError_withRequestId, isError_message]
  rfl

theorem exists_trace_join (hplayer : s.players.lookup sid = some player) (hlate : RefusedAtEnd d player)
    (hvoice : MovesPlayers.isVoiceRequest d = true)
    : ∃ tr b s', Prog.Trace (updateVoiceChat sid d) s tr b s' ∧ VoiceRefused sid tr
        ∧ s'.players = s.evicted sid true player := by
  obtain ⟨s₁, hsame, hruns⟩ := exists_trace_limits (d := d) hplayer
  have hplayer₁ : s₁.players.lookup sid = some player := hsame.players ▸ hplayer
  have hvoice' : (d.getBool? "isVoiceChat").getD false = true := hvoice
  have hopen : ∃ tr, Prog.Trace (voiceRefused player.userId (namedCallRoom d)) s₁ tr false s₁ := by
    unfold voiceRefused
    split
    . exact ⟨_, Prog.trace_bind_iff.2 ⟨none, _, _, _, Prog.trace_atom_iff.2 ⟨{ dbFails := true }, rfl, rfl, rfl⟩,
        .done _ _, rfl⟩⟩
    . exact ⟨_, .done _ _⟩
  obtain ⟨tr₁, hopen⟩ := hopen
  have hlate : true = true ∧ player.status = .invisible ∨ _ := hlate.imp_left fun h => ⟨rfl, h.2⟩
  obtain ⟨tr₂, text, hcomplete, hqueued⟩ := exists_trace_completeVoice
    (normalizeCallMedia (d.get? "media") true).2.1 (normalizeCallMedia (d.get? "media") true).2.2 (requestId d)
    hplayer₁ hlate
  have htail : Prog.Trace (voiceTail sid d player.userId) s₁ (tr₁ ++ tr₂) false
      { s₁ with players := s₁.evicted sid true player } := by
    unfold voiceTail
    rw [hvoice']
    exact Prog.trace_bind_iff.2 ⟨false, _, _, _, hopen, hcomplete, rfl⟩
  obtain ⟨tr, hrun, hsent⟩ := hruns _ _ _ htail
  have hmem : (sid, withRequestId (message 98 [("error", .str text)]) (requestId d)) ∈ queued tr := by
    rw [hsent, queued_append, hqueued]
    exact List.mem_append_right _ (List.mem_singleton_self _)
  exact ⟨tr, false, _, hrun, voiceRefused_of_queued hmem, evicted_congr hsame.players _ _⟩

theorem exists_trace_leave {roomId : String} {room : RoomRecord} (hplayer : s.players.lookup sid = some player)
    (hlate : RefusedAtEnd d player) (hleave : MovesPlayers.isVoiceRequest d = false)
    (hnamed : namedCallRoom d = some roomId) (hstored : s.database.lookup roomId = some room)
    (hadmin : isRoomAdmin room player.userId = true)
    : ∃ tr b s', Prog.Trace (updateVoiceChat sid d) s tr b s' ∧ VoiceRefused sid tr
        ∧ s'.callAccessOverrides = s.callAccessOverrides.filter (· ≠ roomId)
        ∧ ∀ k other, s.players.lookup k = some other → roomId ∈ other.rooms → ∃ m ∈ queued tr, m.1 = other.id := by
  obtain ⟨s₁, hsame, hruns⟩ := exists_trace_limits (d := d) hplayer
  have hleave' : (d.getBool? "isVoiceChat").getD false = false := hleave
  let s₂ : AppState := { s₁ with callAccessOverrides := s₁.callAccessOverrides.filter (· ≠ roomId) }
  let payload := message 51 [("gameId", .str roomId), ("allowMembers", .bool false)]
  let heard := (s₁.players.values.filter fun player => player.rooms.contains roomId).map (·.id)
  have hclose : Prog.Trace (closeCallAccess player.userId (some roomId)) s₁
      ([(.calm, .read roomId (some room))] ++ ([(.calm, .quiet)] ++ [(.calm, .broadcast heard payload)])) () s₂ := by
    unfold closeCallAccess
    refine Prog.trace_bind_iff.2 ⟨some room, s₁, _, _, Prog.trace_atom_iff.2 ⟨.calm, ?_⟩, ?_, rfl⟩
    . have hread : Env.calm.readRoom s₁ roomId = some room := by
        rw [Env.readRoom, hsame.database]
        exact hstored
      simp only [hread]
      exact ⟨trivial, trivial, trivial⟩
    . dsimp only
      rw [if_pos hadmin]
      exact Prog.trace_bind_iff.2 ⟨(), s₂, _, _, Prog.trace_atom_iff.2 ⟨.calm, rfl, rfl, rfl⟩,
        Prog.trace_atom_iff.2 ⟨.calm, rfl, rfl, rfl⟩, rfl⟩
  have hplayer₂ : s₂.players.lookup sid = some player := hsame.players ▸ hplayer
  have hlate : false = true ∧ player.status = .invisible ∨ _ :=
    hlate.imp_left fun h => absurd (hleave ▸ h.1) Bool.false_ne_true
  obtain ⟨tr₂, text, hcomplete, hqueued⟩ := exists_trace_completeVoice
    (normalizeCallMedia (d.get? "media") false).2.1 (normalizeCallMedia (d.get? "media") false).2.2 (requestId d)
    hplayer₂ hlate
  have htail : Prog.Trace (voiceTail sid d player.userId) s₁
      (([(.calm, .read roomId (some room))] ++ ([(.calm, .quiet)] ++ [(.calm, .broadcast heard payload)])) ++ tr₂) false
      { s₂ with players := s₂.evicted sid false player } := by
    unfold voiceTail
    rw [hleave']
    refine Prog.trace_bind_iff.2 ⟨(), s₂, _, _, ?_, hcomplete, rfl⟩
    rw [hnamed]
    exact hclose
  obtain ⟨tr, hrun, hsent⟩ := hruns _ _ _ htail
  have hqueued : queued tr
      = heard.map (fun k => (k, payload))
        ++ [(sid, withRequestId (message 98 [("error", .str text)]) (requestId d))] := by
    rw [hsent, queued_append, hqueued]
    simp [Label.queued]
  have hmem : (sid, withRequestId (message 98 [("error", .str text)]) (requestId d)) ∈ queued tr := by
    rw [hqueued]
    exact List.mem_append_right _ (List.mem_singleton_self _)
  refine ⟨tr, false, _, hrun, voiceRefused_of_queued hmem, ?_, ?_⟩
  . show s₁.callAccessOverrides.filter _ = _
    rw [hsame.overrides]
  . intro k other hother hroom
    refine ⟨(other.id, payload), ?_, rfl⟩
    have hmem : other ∈ s₁.players.values := hsame.players ▸ AssocMap.mem_values_of_lookup hother
    rw [hqueued]
    refine List.mem_append_left _ (List.mem_map_of_mem (List.mem_map_of_mem (List.mem_filter.2 ⟨hmem, ?_⟩)))
    simpa using hroom

end Runs

section Refusals

variable {s s' : AppState} {sid : String} {d : Json} {tr : List (Env × Label)}

theorem evicted_of_not_stale {player : PlayerSession} {isVoiceChat : Bool}
    (h : ¬ (isVoiceChat = true ∧ player.userId ≠ ""
      ∧ ∃ k other, s.players.lookup k = some other ∧ isStaleVoice sid player.userId other = true))
    : s.evicted sid isVoiceChat player = s.players := by
  rw [AppState.evicted]
  split
  next hevicts =>
    simp only [Bool.and_eq_true, decide_eq_true_eq] at hevicts
    refine AssocMap.mapValues_eq_self fun k other hother => ?_
    rw [if_neg]
    exact fun hstale => h ⟨hevicts.1, hevicts.2, k, other, hother, hstale⟩
  next => rfl

theorem VoiceOutcome.callsUnchanged (h : VoiceOutcome s sid d tr s') (hrefused : VoiceRefused sid tr)
    (hevicts : ∀ player, s.players.lookup sid = some player → RefusedAtEnd d player → ¬ EvictsOther s sid d player)
    (hcloses : ∀ player, s.players.lookup sid = some player → RefusedAtEnd d player → ¬ ClosesCalls s sid d player)
    : CallsUnchanged s sid tr s' := by
  cases h with
  | unchanged hplayers hoverrides hqueued =>
    exact ⟨fun k => by rw [hplayers], fun roomId => by rw [hoverrides], hqueued⟩
  | refused player hplayer hlate hplayers hoverrides hqueued =>
    have hnone := hevicts player hplayer hlate
    rw [evicted_of_not_stale fun ⟨hvoice, haccount, hother⟩ => hnone ⟨hvoice, haccount, hother⟩] at hplayers
    exact ⟨fun k => by rw [hplayers], fun roomId => by rw [hoverrides], hqueued⟩
  | closed player hplayer hlate hleave hplayers roomId room hnamed hstored hadmin hoverrides hqueued =>
    have hnone := hcloses player hplayer hlate
    refine ⟨fun k => by rw [hplayers], fun roomId' => ?_, fun m hm => ?_⟩
    . rw [hoverrides, List.mem_filter, decide_eq_true_eq, and_iff_left_iff_imp]
      rintro hmem rfl
      exact hnone ⟨hleave, roomId', room, hnamed, hstored, hadmin, .inl hmem⟩
    . obtain hsid | hheard := hqueued m hm
      . exact hsid
      . obtain ⟨other, hother, hid⟩ := List.mem_map.1 hheard
        obtain ⟨hmem, hroom⟩ := List.mem_filter.1 hother
        obtain ⟨k, hlookup⟩ := AssocMap.exists_lookup_of_mem_values hmem
        by_contra hne
        exact hnone ⟨hleave, roomId, room, hnamed, hstored, hadmin,
          .inr ⟨k, other, hlookup, by simpa using hroom, fun heq => hne (hid.symm.trans heq)⟩⟩
  | accepted hqueued =>
    obtain ⟨m, hm, -, herror⟩ := hrefused
    rw [hqueued m hm] at herror
    contradiction

/--
A refused op 98 leaves the calls as they are exactly if its last check has nothing to refuse or nothing has happened
before it: no other session of the account is in a call when it asks to join, and no calls of a room are closed when
it asks to leave.
-/
theorem refused_unchanged_iff
    : (∀ tr b s', Prog.Trace (updateVoiceChat sid d) s tr b s' → VoiceRefused sid tr → CallsUnchanged s sid tr s')
        ↔ ∀ player, s.players.lookup sid = some player → RefusedAtEnd d player →
          ¬ EvictsOther s sid d player ∧ ¬ ClosesCalls s sid d player := by
  constructor
  . intro h player hplayer hlate
    constructor
    . rintro ⟨hvoice, haccount, k, other, hother, hstale⟩
      obtain ⟨tr, b, s', hrun, hrefused, hplayers⟩ := exists_trace_join hplayer hlate hvoice
      have hsame := (h tr b s' hrun hrefused).sessions k
      rw [hplayers, AppState.evicted, evictVoice] at hsame
      simp only [haccount, ne_eq, not_false_eq_true, decide_true, Bool.and_true, if_true, AssocMap.lookup_mapValues,
        hother, Option.map_some, hstale, Option.some.injEq] at hsame
      have hvoice : other.hangUp.isVoiceChat = other.isVoiceChat := congrArg Prod.fst hsame
      rw [isStaleVoice, Bool.and_eq_true] at hstale
      exact absurd (hvoice.trans hstale.2) Bool.false_ne_true
    . rintro ⟨hleave, roomId, room, hnamed, hstored, hadmin, hcloses⟩
      obtain ⟨tr, b, s', hrun, hrefused, hoverrides, hheard⟩ :=
        exists_trace_leave hplayer hlate hleave hnamed hstored hadmin
      have hsame := h tr b s' hrun hrefused
      obtain hoverridden | ⟨k, other, hother, hroom, hid⟩ := hcloses
      . have hmem := (hsame.overrides roomId).2 hoverridden
        rw [hoverrides, List.mem_filter] at hmem
        simp at hmem
      . obtain ⟨m, hm, hrecipient⟩ := hheard k other hother hroom
        exact hid (hrecipient.symm.trans (hsame.unheard m hm))
  . intro h tr b s' hrun hrefused
    exact (outcome_updateVoiceChat hrun).callsUnchanged hrefused
      (fun player hplayer hlate => (h player hplayer hlate).1) fun player hplayer hlate => (h player hplayer hlate).2

/--
A phone in a call and a laptop of the same account, which is in no room.
-/
def twoDevices : AppState where
  players := (AList.insert "phone" { id := "phone", userId := "alice", username := "Alice", isVoiceChat := true } ∅)
    |>.insert "laptop" { id := "laptop", userId := "alice", username := "Alice" }

/--
The laptop asks to join the call of a room that it is not in.
-/
def joinElsewhere : Json := .obj [("isVoiceChat", .bool true), ("gameId", .str "room0001")]

/--
The phone is out of its call although the join of the laptop has been refused.
-/
theorem not_unchanged_of_refused_join
    : ¬ ∀ tr b s', Prog.Trace (updateVoiceChat "laptop" joinElsewhere) twoDevices tr b s' →
        VoiceRefused "laptop" tr → CallsUnchanged twoDevices "laptop" tr s' := by
  intro h
  have hrun := Prog.trace_play .calm (updateVoiceChat "laptop" joinElsewhere) twoDevices
  have hrefused : (queued (Prog.play .calm (updateVoiceChat "laptop" joinElsewhere) twoDevices).1).any
      (fun m => m.1 = "laptop" && isError 98 m.2) = true := by decide +kernel
  have hevicted : ((Prog.play .calm (updateVoiceChat "laptop" joinElsewhere) twoDevices).2.2.players.lookup
      "phone").map (fun player => player.isVoiceChat) = some false := by decide +kernel
  have hcalling : (twoDevices.players.lookup "phone").map (fun player => player.isVoiceChat) = some true := by
    decide +kernel
  have hanswered : VoiceRefused "laptop" (Prog.play .calm (updateVoiceChat "laptop" joinElsewhere) twoDevices).1 := by
    obtain ⟨m, hm, htest⟩ := List.any_eq_true.1 hrefused
    rw [Bool.and_eq_true, decide_eq_true_eq] at htest
    exact ⟨m, hm, htest⟩
  have hphone := congrArg (Option.map Prod.fst) ((h _ _ _ hrun hanswered).sessions "phone")
  rw [Option.map_map, Option.map_map] at hphone
  exact absurd (hevicted.symm.trans (hphone.trans hcalling)) (by decide)

end Refusals

end Lqxp
