import Mathlib.Algebra.Order.Group.Nat
import Mathlib.Algebra.Order.BigOperators.Group.List
import Lqxp.Presence.Limits
import Lqxp.Presence.Uniqueness

/-!
This module contains the proof of when a room whose calls are closed to its members keeps them out of its calls.
-/

namespace Lqxp

/--
A room whose calls are closed to a session that is in it.
-/
structure ClosedCalls (s : AppState) (roomId sid : String) (player : PlayerSession) (room : RoomRecord)
    : Prop where
  session : s.players.lookup sid = some player
  inRoom : roomId ∈ player.rooms
  record : s.database.lookup roomId = some room
  community : room.kind = .community
  disabled : room.callsEnabled = false
  notOverridden : roomId ∉ s.callAccessOverrides
  member : isRoomAdmin room player.userId = false

/--
A session gets into the call of a room.
-/
def EntersCall (s s' : AppState) (roomId sid : String) : Prop :=
  (∃ player, s.players.lookup sid = some player ∧ player.isCallInRoom roomId = false)
    ∧ ∃ player, s'.players.lookup sid = some player ∧ player.isCallInRoom roomId

/--
Nothing fails while a request is served.
-/
def Healthy (tr : List (Env × Label)) : Prop := ∀ x ∈ tr, x.1.dbFails = false

/--
The requests that get past the closed calls of a room: op 98 that names no room, op 110 that names this room or
none, and op 2.
-/
def PresenceRequest.passes (s : AppState) (roomId sid : String) (player : PlayerSession)
    : PresenceRequest → Bool
  | .identify sid' d => sid' = sid && MovesPlayers.isVoiceRequest d && (s.identifiedUser d).isSome
    && player.callRoom.all (· = roomId)
  | .voice sid' d => sid' = sid && MovesPlayers.isVoiceRequest d && s.callsEnabled && namedCallRoom d = none
    && player.status ≠ .invisible
  | .media sid' d => sid' = sid && MovesPlayers.isVoiceRequest d && s.callsEnabled
    && (namedCallRoom d).all (· = roomId) && player.username ≠ "" && player.status ≠ .invisible
    && !(player.userId ≠ "" && s.players.values.any (isStaleVoice sid player.userId))
  | _ => false

section Gates

variable {s s' : AppState} {sid : String} {d : Json} {tr : List (Env × Label)} {b : Bool}

theorem Healthy.append {tr tr' : List (Env × Label)} (h : Healthy (tr ++ tr')) : Healthy tr ∧ Healthy tr' :=
  ⟨fun x hx => h x (List.mem_append_left _ hx), fun x hx => h x (List.mem_append_right _ hx)⟩

theorem trace_callsSwitchedOff {isVoiceChat off : Bool}
    (h : Prog.Trace (callsSwitchedOff isVoiceChat) s tr off s') (hhealthy : Healthy tr)
    : s' = s ∧ off = (isVoiceChat && !s.callsEnabled) := by
  unfold callsSwitchedOff at h
  split at h
  next hvoice =>
    obtain ⟨enabled, s₁, tr₁, tr₂, hlook, hdone, rfl⟩ := Prog.trace_bind_iff.1 h
    obtain ⟨e, rfl, rfl, rfl⟩ := trace_look hlook
    obtain ⟨rfl, rfl, rfl⟩ := Prog.trace_done_iff.1 hdone
    have he : e.dbFails = false := hhealthy _ List.mem_cons_self
    simp [hvoice, he]
  next hvoice =>
    obtain ⟨rfl, rfl, rfl⟩ := Prog.trace_done_iff.1 h
    simp [hvoice]

theorem trace_voiceRefused {userId : String} {callRoom : Option String} {refused : Bool}
    (h : Prog.Trace (voiceRefused userId callRoom) s tr refused s') (hhealthy : Healthy tr)
    : s' = s ∧ ∀ roomId room, callRoom = some roomId → s.database.lookup roomId = some room →
        refused = callsClosed room userId (s.callAccessOverrides.contains roomId) := by
  unfold voiceRefused at h
  split at h
  next roomId =>
    obtain ⟨record, s₁, tr₁, tr₂, hread, hrest, rfl⟩ := Prog.trace_bind_iff.1 h
    obtain ⟨e, rfl, hrecord, rfl⟩ := Prog.trace_atom_iff.1 hread
    have he : e.dbFails = false := hhealthy _ List.mem_cons_self
    have hstored : record = s₁.database.lookup roomId := by
      rw [hrecord]
      simp [Env.readRoom, he]
    clear hread hrecord
    split at hrest
    next room =>
      obtain ⟨overridden, s₂, tr₃, tr₄, hlook, hdone, rfl⟩ := Prog.trace_bind_iff.1 hrest
      obtain ⟨e', rfl, rfl, rfl⟩ := trace_look hlook
      obtain ⟨rfl, rfl, rfl⟩ := Prog.trace_done_iff.1 hdone
      refine ⟨rfl, fun roomId' room' hroomId hlookup => ?_⟩
      obtain rfl : roomId = roomId' := Option.some.inj hroomId
      obtain rfl : room = room' := Option.some.inj (hstored.trans hlookup)
      rfl
    next hnone =>
      obtain ⟨rfl, rfl, rfl⟩ := Prog.trace_done_iff.1 hrest
      refine ⟨rfl, fun roomId' room' hroomId hlookup => ?_⟩
      obtain rfl : roomId = roomId' := Option.some.inj hroomId
      exact absurd (hstored.trans hlookup) (hnone room')
  next hnone =>
    obtain ⟨rfl, rfl, rfl⟩ := Prog.trace_done_iff.1 h
    exact ⟨rfl, fun roomId room hroom => absurd hroom (hnone roomId)⟩

theorem gates_updateVoiceChat (h : Prog.Trace (updateVoiceChat sid d) s tr b s') (hhealthy : Healthy tr)
    (hvoice : MovesPlayers.isVoiceRequest d) {player : PlayerSession} (hplayer : s.players.lookup sid = some player)
    : s'.players = s.players ∨ s.callsEnabled ∧ ∀ roomId room, namedCallRoom d = some roomId →
        s.database.lookup roomId = some room →
        callsClosed room player.userId (s.callAccessOverrides.contains roomId) = false := by
  obtain ⟨limited, s₁, tr₁, tr₂, hlimit, h₁, rfl⟩ := Prog.trace_bind_iff.1 h
  obtain ⟨e, rfl, -, rfl⟩ := trace_hitRateLimit hlimit
  obtain ⟨-, hhealthy⟩ := hhealthy.append
  dsimp only at h₁
  split at h₁
  . exact .inl (.trans (KeepsPlayers.respondError _ _ _ _ _ _ _ _ h₁) rfl)
  obtain ⟨off, s₂, tr₃, tr₄, hoff, h₂, rfl⟩ := Prog.trace_bind_iff.1 h₁
  obtain ⟨rfl, hflag⟩ := trace_callsSwitchedOff hoff hhealthy.append.1
  obtain ⟨-, hhealthy⟩ := hhealthy.append
  split at h₂
  . exact .inl (.trans (KeepsPlayers.respondError _ _ _ _ _ _ _ _ h₂) rfl)
  next hon =>
    have hvoice : (d.getBool? "isVoiceChat").getD false = true := hvoice
    have henabled : s.callsEnabled := by
      rw [hflag, hvoice] at hon
      simpa using hon
    obtain ⟨⟨userId, alreadyInVoice⟩, s₃, tr₅, tr₆, hlook, h₃, rfl⟩ := Prog.trace_bind_iff.1 h₂
    obtain ⟨e', rfl, hsession, rfl⟩ := trace_look hlook
    obtain ⟨-, hhealthy⟩ := hhealthy.append
    obtain ⟨limited, s₄, tr₇, tr₈, hjoin, h₄, rfl⟩ := Prog.trace_bind_iff.1 h₃
    obtain ⟨-, hhealthy⟩ := hhealthy.append
    have hs₄ : s₄.players = s.players ∧ s₄.database = s.database
        ∧ s₄.callAccessOverrides = s.callAccessOverrides := by
      rcases trace_hitVoiceJoin hjoin with ⟨-, rfl⟩ | ⟨x, -, rfl, -⟩ <;> exact ⟨rfl, rfl, rfl⟩
    obtain ⟨hplayers₄, hdatabase₄, hoverrides₄⟩ := hs₄
    rw [← hplayers₄]
    split at h₄
    . exact .inl (KeepsPlayers.respondError _ _ _ _ _ _ _ _ h₄)
    obtain ⟨refused, s₅, tr₉, tr₁₀, hrefused, h₅, rfl⟩ := Prog.trace_bind_iff.1 h₄
    obtain ⟨rfl, hrefused⟩ := trace_voiceRefused hrefused hhealthy.append.1
    split at h₅
    . exact .inl (KeepsPlayers.respondError _ _ _ _ _ _ _ _ h₅)
    next hadmitted =>
      refine .inr ⟨henabled, fun roomId room hnamed hlookup => ?_⟩
      obtain rfl : userId = player.userId := by
        simp only [hplayer] at hsession
        exact (Prod.mk.inj hsession).1
      rw [← hoverrides₄, ← hrefused roomId room hnamed (hdatabase₄ ▸ hlookup)]
      simpa using hadmitted

theorem gates_updateCallMediaState (h : Prog.Trace (updateCallMediaState sid d) s tr b s') (hhealthy : Healthy tr)
    (hvoice : MovesPlayers.isVoiceRequest d) {player : PlayerSession} (hplayer : s.players.lookup sid = some player)
    : s'.players = s.players ∨ s.callsEnabled ∧ player.username ≠ "" := by
  obtain ⟨limited, s₁, tr₁, tr₂, hlimit, h₁, rfl⟩ := Prog.trace_bind_iff.1 h
  obtain ⟨e, rfl, -, rfl⟩ := trace_hitRateLimit hlimit
  obtain ⟨-, hhealthy⟩ := hhealthy.append
  dsimp only at h₁
  split at h₁
  . exact .inl (.trans (KeepsPlayers.respondError _ _ _ _ _ _ _ _ h₁) rfl)
  obtain ⟨off, s₂, tr₃, tr₄, hoff, h₂, rfl⟩ := Prog.trace_bind_iff.1 h₁
  obtain ⟨rfl, hflag⟩ := trace_callsSwitchedOff hoff hhealthy.append.1
  split at h₂
  . exact .inl (.trans (KeepsPlayers.respondError _ _ _ _ _ _ _ _ h₂) rfl)
  next hon =>
    have hvoice : (d.getBool? "isVoiceChat").getD false = true := hvoice
    have henabled : s.callsEnabled := by
      rw [hflag, hvoice] at hon
      simpa using hon
    by_cases hname : player.username = ""
    . left
      obtain ⟨result, s₃, tr₅, tr₆, hset, h₃, rfl⟩ := Prog.trace_bind_iff.1 h₂
      obtain ⟨e', rfl, rfl, rfl⟩ := Prog.trace_atom_iff.1 hset
      simp only [hplayer, hname, if_true] at h₃ ⊢
      exact .trans (KeepsPlayers.respondError _ _ _ _ _ _ _ _ h₃) rfl
    . exact .inr ⟨henabled, hname⟩

end Gates

section Passes

variable {s s' : AppState} {roomId sid : String} {d : Json} {tr : List (Env × Label)} {player : PlayerSession}
  {room : RoomRecord}

theorem not_entersCall_of_players (hplayers : s'.players = s.players) : ¬EntersCall s s' roomId sid := by
  rintro ⟨⟨player, hplayer, hout⟩, player', hplayer', hin⟩
  rw [hplayers, hplayer] at hplayer'
  obtain rfl := Option.some.inj hplayer'
  exact absurd (hout.symm.trans hin) Bool.false_ne_true

theorem ClosedCalls.callsClosed (h : ClosedCalls s roomId sid player room)
    : callsClosed room player.userId (s.callAccessOverrides.contains roomId) := by
  simp [Lqxp.callsClosed, h.community, h.disabled, h.member, h.notOverridden]

theorem isCallInRoom_setCall {now : PlayerSession} {isVoiceChat camera screen : Bool} {callRoom : Option String}
    : (now.setCall isVoiceChat camera screen callRoom).isCallInRoom roomId
        = (isVoiceChat && callRoom.all (· = roomId)) := by
  cases isVoiceChat with
  | false => rfl
  | true => rfl

theorem passes_voice (hclosed : ClosedCalls s roomId sid player room)
    (h : Prog.Trace (PresenceRequest.voice sid d).handle s tr () s') (hhealthy : Healthy tr)
    (henters : EntersCall s s' roomId sid) : (PresenceRequest.voice sid d).passes s roomId sid player := by
  have hmoved : s'.players ≠ s.players := fun hsame => not_entersCall_of_players hsame henters
  obtain ⟨player', m₁, camera, screen, hplayer, hm₁, hset⟩ :=
    (PresenceRequest.changes_of_trace h).resolve_left hmoved
  obtain rfl : player' = player := Option.some.inj (hplayer.symm.trans hclosed.session)
  obtain ⟨⟨player, hbefore, hout⟩, after, hafter, hin⟩ := henters
  obtain rfl : player' = player := Option.some.inj (hplayer.symm.trans hbefore)
  obtain ⟨now, hnow, -, -, -, hcalls⟩ := lookup_of_evicted hplayer hm₁
  rcases hset with hm₁ | ⟨-, hvisible, hset⟩
  . rw [hm₁, hnow] at hafter
    obtain rfl := Option.some.inj hafter
    exact absurd (hout.symm.trans (hcalls roomId hin)) Bool.false_ne_true
  rw [hset, AssocMap.lookup_modify_self, hnow] at hafter
  obtain rfl := Option.some.inj hafter
  rw [isCallInRoom_setCall, Bool.and_eq_true] at hin
  obtain ⟨hvoice, hnamed⟩ := hin
  obtain ⟨b, hrun⟩ := PresenceRequest.trace_answer h
  obtain ⟨henabled, hopen⟩ := (gates_updateVoiceChat hrun hhealthy hvoice hplayer).resolve_left hmoved
  have hnone : namedCallRoom d = none := by
    cases hcallRoom : namedCallRoom d with
    | none => rfl
    | some roomId' =>
      obtain rfl : roomId' = roomId := by simpa [hcallRoom] using hnamed
      exact absurd ((hopen roomId' room hcallRoom hclosed.record).symm.trans hclosed.callsClosed)
        Bool.false_ne_true
  simp [PresenceRequest.passes, hvoice, henabled, hnone, hvisible hvoice]

theorem passes_media (hclosed : ClosedCalls s roomId sid player room)
    (h : Prog.Trace (PresenceRequest.media sid d).handle s tr () s') (hhealthy : Healthy tr)
    (henters : EntersCall s s' roomId sid) : (PresenceRequest.media sid d).passes s roomId sid player := by
  have hmoved : s'.players ≠ s.players := fun hsame => not_entersCall_of_players hsame henters
  obtain ⟨camera, screen, player', hplayer, hsingle, player'', hplayer'', -, hvisible, hset⟩ :=
    (PresenceRequest.changes_of_trace h).resolve_left hmoved
  obtain rfl : player' = player := Option.some.inj (hplayer.symm.trans hclosed.session)
  obtain rfl : player' = player'' := Option.some.inj (hplayer.symm.trans hplayer'')
  obtain ⟨-, after, hafter, hin⟩ := henters
  rw [hset, AssocMap.lookup_modify_self, hplayer] at hafter
  obtain rfl := Option.some.inj hafter
  rw [isCallInRoom_setCall, Bool.and_eq_true] at hin
  obtain ⟨hvoice, hnamed⟩ := hin
  obtain ⟨b, hrun⟩ := PresenceRequest.trace_answer h
  obtain ⟨henabled, hname⟩ := (gates_updateCallMediaState hrun hhealthy hvoice hplayer).resolve_left hmoved
  have hstale : player'.userId ≠ "" → s.players.values.any (isStaleVoice sid player'.userId) = false := by
    intro huser
    rw [List.any_eq_false]
    intro other hmem
    obtain ⟨k, hlookup⟩ := AssocMap.exists_lookup_of_mem_values hmem
    rw [hsingle hvoice huser k other hlookup]
    exact Bool.false_ne_true
  by_cases huser : player'.userId = ""
  . simp [PresenceRequest.passes, hvoice, henabled, hnamed, hname, hvisible hvoice, huser]
  . simp [PresenceRequest.passes, hvoice, henabled, hnamed, hname, hvisible hvoice, hstale huser]

theorem passes_identify (hclosed : ClosedCalls s roomId sid player room)
    (h : Prog.Trace (PresenceRequest.identify sid d).handle s tr () s')
    (henters : EntersCall s s' roomId sid) : (PresenceRequest.identify sid d).passes s roomId sid player := by
  have hmoved : s'.players ≠ s.players := fun hsame => not_entersCall_of_players hsame henters
  obtain ⟨user, e, huser, -, hset⟩ := (PresenceRequest.changes_of_trace h).resolve_left hmoved
  obtain ⟨-, after, hafter, hin⟩ := henters
  rw [hset, AssocMap.lookup_modify_self, hclosed.session] at hafter
  obtain rfl := Option.some.inj hafter
  obtain ⟨hvoice, hroom⟩ : MovesPlayers.isVoiceRequest d ∧ player.callRoom.all (· = roomId) :=
    (Bool.and_eq_true ..).mp hin
  simp [PresenceRequest.passes, hvoice, huser, hroom]

end Passes

section Reaches

variable {s : AppState} {sid : String} {d : Json} {player : PlayerSession}

theorem rateLimitHit_of_over {now limit windowMs : Nat} {key : String}
    {buckets : AssocMap String RateLimitBucket} (hlimit : 1 ≤ limit)
    (hover : ∀ bucket, buckets.lookup key = some bucket → windowMs < now - bucket.windowStartMs)
    : (rateLimitHit now key limit windowMs buckets).1 = false := by
  rw [rateLimitHit]
  dsimp only
  generalize hbuckets : (if 5000 < buckets.size then
    buckets.retain fun _ bucket => now - bucket.windowStartMs ≤ bucket.windowMs else buckets) = kept
  have hkept : ∀ bucket, kept.lookup key = some bucket → windowMs < now - bucket.windowStartMs := by
    intro bucket hbucket
    rw [← hbuckets] at hbucket
    split at hbucket
    . rw [AssocMap.lookup_retain, Option.filter_eq_some_iff] at hbucket
      exact hover bucket hbucket.1
    . exact hover bucket hbucket
  rw [decide_eq_false_iff_not, Nat.not_lt]
  cases hlookup : kept.lookup key with
  | none => simpa using hlimit
  | some bucket => simpa [hkept bucket hlookup] using hlimit

theorem lookup_rateLimitHit_of_ne (now limit windowMs : Nat) {key key' : String}
    {buckets : AssocMap String RateLimitBucket} {bucket : RateLimitBucket} (hkey : key' ≠ key)
    (hlookup : (rateLimitHit now key limit windowMs buckets).2.lookup key' = some bucket)
    : buckets.lookup key' = some bucket := by
  rw [rateLimitHit] at hlookup
  dsimp only at hlookup
  rw [AList.lookup_insert_ne hkey] at hlookup
  split at hlookup
  . rw [AssocMap.lookup_retain, Option.filter_eq_some_iff] at hlookup
    exact hlookup.1
  . exact hlookup

theorem exists_late (buckets : AssocMap String RateLimitBucket)
    : ∃ now, ∀ key bucket, buckets.lookup key = some bucket → 60000 < now - bucket.windowStartMs := by
  refine ⟨(buckets.values.map (·.windowStartMs)).sum + 60001, fun key bucket hlookup => ?_⟩
  have hle : bucket.windowStartMs ≤ (buckets.values.map (·.windowStartMs)).sum :=
    List.single_le_sum (by simp) _ (List.mem_map_of_mem (AssocMap.mem_values_of_lookup hlookup))
  omega

theorem lookup_play_completeVoice {e : Env} {camera screen : Bool} {reqId : Option String}
    (hplayer : s.players.lookup sid = some player) (hvisible : player.status ≠ .invisible)
    : ∃ now : PlayerSession, (Prog.play e (completeVoice sid true camera screen none reqId) s).2.2.players.lookup sid
        = some (now.setCall true camera screen none) := by
  rw [completeVoice, Prog.Preserves.play_bind (v := AppState.players)]
  . rw [setVoice, Prog.play_atom]
    simp only [hplayer, hvisible, decide_false, Bool.and_false, Bool.false_eq_true, if_false]
    generalize hm₁ : (if (true && decide (player.userId ≠ "")) = true then evictVoice sid player.userId s.players
      else s.players) = m₁
    obtain ⟨now, hnow, -⟩ := lookup_of_evicted hplayer hm₁.symm
    refine ⟨now, ?_⟩
    rw [setCallIn, AssocMap.lookup_modify_self, hnow]
    rfl
  . intro result
    split
    . exact KeepsPlayers.respondError _ _ _ _
    . exact .bind (KeepsPlayers.broadcastVoice _ _ _ _) fun _ =>
        .bind (KeepsPlayers.broadcastEvicted _) fun _ => KeepsPlayers.respondOk _ _ _ _

theorem play_hitRateLimit {e : Env} {key : String} {limit windowMs : Nat} (hlimit : 1 ≤ limit)
    (hover : ∀ bucket, s.rateLimits.lookup key = some bucket → windowMs < e.now - bucket.windowStartMs)
    : ∃ s', (Prog.play e (hitRateLimit key limit windowMs) s).2 = (false, s')
        ∧ s'.players = s.players ∧ s'.callsEnabled = s.callsEnabled
        ∧ ∀ key' bucket, key' ≠ key → s'.rateLimits.lookup key' = some bucket →
          s.rateLimits.lookup key' = some bucket := by
  refine ⟨{ s with rateLimits := (rateLimitHit e.now key limit windowMs s.rateLimits).2 }, ?_, rfl, rfl,
    fun key' bucket hkey hbucket => lookup_rateLimitHit_of_ne e.now limit windowMs hkey hbucket⟩
  rw [hitRateLimit, Prog.play_atom]
  dsimp only
  rw [rateLimitHit_of_over hlimit hover]

theorem play_callsSwitchedOff {e : Env} (he : e.dbFails = false) (henabled : s.callsEnabled) (isVoiceChat : Bool)
    : (Prog.play e (callsSwitchedOff isVoiceChat) s).2 = (false, s) := by
  unfold callsSwitchedOff
  split
  . rw [Prog.play_bind, callsEnabledFlag, look, Prog.play_atom]
    simp [he, henabled, Prog.play]
  . rfl

theorem play_hitVoiceJoin {e : Env} {userId : String} (isJoin : Bool)
    (hover : ∀ key bucket, key ≠ "voice_chat:session:" ++ sid → s.rateLimits.lookup key = some bucket →
      60000 < e.now - bucket.windowStartMs)
    : ∃ s', (Prog.play e (hitVoiceJoin sid userId isJoin) s).2 = (false, s') ∧ s'.players = s.players := by
  unfold hitVoiceJoin
  split
  . dsimp only
    generalize hkey : (if userId = "" then "voice_join:session:" ++ sid else "voice_join:user:" ++ userId) = key
    have hne : key ≠ "voice_chat:session:" ++ sid := by
      rw [← hkey]
      split <;> exact Text.append_ne_append 16 (by decide) (by decide) (by decide) _ _
    obtain ⟨s', hplay, hplayers, -⟩ : ∃ s',
        (Prog.play e (hitRateLimit key voiceJoinsPerMinute 60000) s).2 = (false, s') ∧ _ :=
      play_hitRateLimit (by decide) fun bucket => hover key bucket hne
    exact ⟨s', hplay, hplayers⟩
  . exact ⟨s, rfl, rfl⟩

theorem exists_entersCall {req : PresenceRequest} {roomId : String} {e : Env} (he : e.dbFails = false)
    (hplayer : s.players.lookup sid = some player) (hout : player.isCallInRoom roomId = false)
    (hin : ∃ now, (Prog.play e req.handle s).2.2.players.lookup sid = some now ∧ now.isCallInRoom roomId)
    : ∃ tr s', Prog.Trace req.handle s tr () s' ∧ Healthy tr ∧ EntersCall s s' roomId sid :=
  ⟨_, _, Prog.trace_play e req.handle s, fun _ hx => Prog.eq_of_mem_play hx ▸ he, ⟨player, hplayer, hout⟩, hin⟩

theorem exists_entersCall_voice {roomId : String} (hplayer : s.players.lookup sid = some player)
    (hout : player.isCallInRoom roomId = false)
    (hpasses : (PresenceRequest.voice sid d).passes s roomId sid player)
    : ∃ tr s', Prog.Trace (PresenceRequest.voice sid d).handle s tr () s' ∧ Healthy tr
        ∧ EntersCall s s' roomId sid := by
  simp only [PresenceRequest.passes, Bool.and_eq_true, decide_eq_true_eq] at hpasses
  obtain ⟨⟨⟨⟨-, hvoice⟩, henabled⟩, hnone⟩, hvisible⟩ := hpasses
  obtain ⟨now, hlate⟩ := exists_late s.rateLimits
  let e : Env := { now }
  refine exists_entersCall (e := e) rfl hplayer hout ?_
  have hvoice : (d.getBool? "isVoiceChat").getD false = true := hvoice
  obtain ⟨s₁, hplay₁, hplayers₁, henabled₁, hlimits₁⟩ : ∃ s₁,
      (Prog.play e (hitRateLimit ("voice_chat:session:" ++ sid) 10 5000) s).2 = (false, s₁) ∧ _ :=
    play_hitRateLimit (by decide) fun bucket hbucket => Nat.lt_trans (by decide) (hlate _ bucket hbucket)
  obtain ⟨s₂, hplay₂, hplayers₂⟩ : ∃ s₂,
      (Prog.play e (hitVoiceJoin sid player.userId (true && !player.isVoiceChat)) s₁).2 = (false, s₂) ∧ _ :=
    play_hitVoiceJoin _ fun key bucket hkey hbucket => hlate key bucket (hlimits₁ key bucket hkey hbucket)
  rw [PresenceRequest.handle, Prog.Preserves.play_bind (v := AppState.players) fun _ => .pure _, updateVoiceChat]
  dsimp only
  rw [Prog.play_bind_of hplay₁, if_neg Bool.false_ne_true, hvoice,
    Prog.play_bind_of (play_callsSwitchedOff rfl (henabled₁.trans henabled) _), if_neg Bool.false_ne_true,
    Prog.play_bind_of (play_look ..)]
  simp only [hplayers₁, hplayer, Option.map_some, Option.getD_some]
  have hopen : (Prog.play e (voiceRefused player.userId none) s₂).2 = (false, s₂) := rfl
  rw [Prog.play_bind_of hplay₂, if_neg Bool.false_ne_true, if_pos trivial, hnone, Prog.play_bind_of hopen,
    if_neg Bool.false_ne_true]
  have hplayer₂ : s₂.players.lookup sid = some player := by
    rw [hplayers₂, hplayers₁]
    exact hplayer
  obtain ⟨now, hnow⟩ := lookup_play_completeVoice hplayer₂ hvisible
  refine ⟨_, hnow, ?_⟩
  rw [isCallInRoom_setCall]
  rfl

theorem setCallIn_of_rooms {isVoiceChat camera screen : Bool} {callRoom : Option String}
    {m : AssocMap String PlayerSession} (hrooms : ∀ room, callRoom = some room → room ∈ player.rooms)
    : (setCallIn sid isVoiceChat camera screen callRoom player m).2
        = m.modify sid (.setCall isVoiceChat camera screen callRoom) := by
  cases callRoom with
  | none => rfl
  | some room => simp [setCallIn, hrooms room rfl]

theorem exists_entersCall_media {roomId : String} (hplayer : s.players.lookup sid = some player)
    (hrooms : roomId ∈ player.rooms) (hout : player.isCallInRoom roomId = false)
    (hpasses : (PresenceRequest.media sid d).passes s roomId sid player)
    : ∃ tr s', Prog.Trace (PresenceRequest.media sid d).handle s tr () s' ∧ Healthy tr
        ∧ EntersCall s s' roomId sid := by
  simp only [PresenceRequest.passes, Bool.and_eq_true, decide_eq_true_eq, ne_eq] at hpasses
  obtain ⟨⟨⟨⟨⟨⟨-, hvoice⟩, henabled⟩, hnamed⟩, hname⟩, hvisible⟩, hsingle⟩ := hpasses
  obtain ⟨now, hlate⟩ := exists_late s.rateLimits
  let e : Env := { now }
  refine exists_entersCall (e := e) rfl hplayer hout ?_
  have hvoice : (d.getBool? "isVoiceChat").getD false = true := hvoice
  obtain ⟨s₁, hplay₁, hplayers₁, henabled₁, -⟩ : ∃ s₁,
      (Prog.play e (hitRateLimit ("call_media:session:" ++ sid) 10 5000) s).2 = (false, s₁) ∧ _ :=
    play_hitRateLimit (by decide) fun bucket hbucket => Nat.lt_trans (by decide) (hlate _ bucket hbucket)
  rw [PresenceRequest.handle, Prog.Preserves.play_bind (v := AppState.players) fun _ => .pure _,
    updateCallMediaState]
  dsimp only
  rw [Prog.play_bind_of hplay₁, if_neg Bool.false_ne_true, hvoice,
    Prog.play_bind_of (play_callsSwitchedOff rfl (henabled₁.trans henabled) _), if_neg Bool.false_ne_true]
  rw [Prog.Preserves.play_bind (v := AppState.players)]
  . rw [setCallMedia, Prog.play_atom]
    simp only [hplayers₁, hplayer]
    rw [if_neg hname, if_neg (by simp [hvisible]), if_neg (by simpa [or_iff_not_imp_left] using hsingle)]
    dsimp only
    rw [setCallIn_of_rooms fun room hroom => ?_, AssocMap.lookup_modify_self, hplayer]
    . refine ⟨_, rfl, ?_⟩
      rw [isCallInRoom_setCall, hnamed]
      rfl
    . obtain rfl : room = roomId := by simpa [hroom] using hnamed
      exact hrooms
  . intro result
    split
    . exact KeepsPlayers.respondError _ _ _ _
    . exact .bind (KeepsPlayers.broadcastCallMedia _ _ _ _) fun _ => KeepsPlayers.respondOk _ _ _ _

theorem play_authenticateToken {e : Env} {token : String} {row : SessionRow} {user : StoredUser}
    (he : e.dbFails = false) (hrow : s.accounts.sessions.lookup (s.accounts.tokenHash token) = some row)
    (hexpires : e.now < row.expiresAt) (huser : s.accounts.users.lookup row.userId = some user)
    (hactive : user.disabled = false ∧ user.banned = false)
    : (Prog.play e (authenticateToken token) s).2 = (some (some (s.accounts.authenticatedUser user)), s) := by
  have hsession : (Prog.play e (sessionUserId token) s).2 = (some (some row.userId), s) := by
    rw [sessionUserId, Prog.play_atom]
    simp [he, hrow, hexpires]
  have hfound : (Prog.play e (userById row.userId) s).2 = (some (some (s.accounts.authenticatedUser user)), s) := by
    rw [userById, Prog.play_atom]
    simp [he, huser]
  rw [authenticateToken, Prog.play_bind_of hsession]
  dsimp only
  rw [Prog.play_bind_of hfound]
  dsimp only
  rw [if_neg]
  . rfl
  . simp [AccountDatabase.authenticatedUser, hactive]

theorem players_play_completeIdentify {e : Env} {account : AuthenticatedUser} {status : UserPresenceStatus}
    {reqId : Option String} (hplayer : s.players.lookup sid = some player)
    : (Prog.play e (completeIdentify sid d account status reqId) s).2.2.players
        = s.players.modify sid (.identifyAs account status d e.now) := by
  rw [completeIdentify, Prog.Preserves.play_bind (v := AppState.players)]
  . rw [bindSession, Prog.play_atom]
    simp only [hplayer]
  . intro bound
    split
    . refine .bind (KeepsPlayers.look _) fun defaultRoom => .bind (KeepsPlayers.respondToSender _ _) fun _ => ?_
      split
      . exact .bind (KeepsPlayers.broadcastSyncPeerEvent _ _ _ _ _) fun _ => .pure _
      . exact .pure _
    . exact .pure _

theorem exists_entersCall_identify {roomId : String} (hplayer : s.players.lookup sid = some player)
    (hout : player.isCallInRoom roomId = false)
    (hpasses : (PresenceRequest.identify sid d).passes s roomId sid player)
    : ∃ tr s', Prog.Trace (PresenceRequest.identify sid d).handle s tr () s' ∧ Healthy tr
        ∧ EntersCall s s' roomId sid := by
  simp only [PresenceRequest.passes, Bool.and_eq_true, Option.isSome_iff_exists] at hpasses
  obtain ⟨⟨⟨-, hvoice⟩, user, huser⟩, hroom⟩ := hpasses
  refine exists_entersCall (e := Env.calm) rfl hplayer hout ?_
  simp only [AppState.identifiedUser, Option.bind_eq_bind, Option.bind_eq_some_iff, Option.filter_eq_some_iff]
    at huser
  obtain ⟨token, htoken, row, ⟨hrow, hexpires⟩, hlookup, hactive⟩ := huser
  rw [PresenceRequest.handle, Prog.Preserves.play_bind (v := AppState.players) fun _ => .pure _, identifyPlayer]
  dsimp only
  rw [identifyToken] at htoken
  rw [htoken]
  dsimp only
  have hunexpired : Env.calm.now < row.expiresAt := of_decide_eq_true hexpires
  rw [Prog.play_bind_of (play_authenticateToken rfl hrow hunexpired hlookup (by simpa using hactive))]
  dsimp only
  have hin (status : UserPresenceStatus) {s' : AppState} (hplayers : s'.players = s.players)
      : ∃ now, (Prog.play Env.calm (completeIdentify sid d (s.accounts.authenticatedUser user) status
          (requestId d)) s').2.2.players.lookup sid = some now ∧ now.isCallInRoom roomId := by
    have hplayer' : s'.players.lookup sid = some player := hplayers ▸ hplayer
    rw [players_play_completeIdentify hplayer', AssocMap.lookup_modify_self, hplayer']
    exact ⟨_, rfl, by simpa [PlayerSession.isCallInRoom] using ⟨hvoice, hroom⟩⟩
  split
  . rw [Prog.play_bind]
    exact hin _ (Prog.Preserves.play (KeepsPlayers.updateStatus _ _) _ _)
  . exact hin _ rfl

end Reaches

/--
While nothing fails, a room whose calls are closed to a session keeps it out of its calls if and only if the request
is none of those that get past that.
-/
theorem closedCalls_iff {s : AppState} {roomId sid : String} {player : PlayerSession} {room : RoomRecord}
    {d : Json} {req : PresenceRequest} (hclosed : ClosedCalls s roomId sid player room)
    (hreq : req = .identify sid d ∨ req = .voice sid d ∨ req = .media sid d)
    : (∀ tr s', Prog.Trace req.handle s tr () s' → Healthy tr → ¬EntersCall s s' roomId sid)
        ↔ player.isCallInRoom roomId ∨ req.passes s roomId sid player = false := by
  constructor
  . intro hheld
    by_contra hor
    obtain ⟨hout, hpasses⟩ : player.isCallInRoom roomId = false ∧ req.passes s roomId sid player := by
      simpa [not_or] using hor
    obtain ⟨tr, s', hrun, hhealthy, henters⟩
        : ∃ tr s', Prog.Trace req.handle s tr () s' ∧ Healthy tr ∧ EntersCall s s' roomId sid := by
      rcases hreq with rfl | rfl | rfl
      . exact exists_entersCall_identify hclosed.session hout hpasses
      . exact exists_entersCall_voice hclosed.session hout hpasses
      . exact exists_entersCall_media hclosed.session hclosed.inRoom hout hpasses
    exact hheld tr s' hrun hhealthy henters
  . intro hor tr s' hrun hhealthy henters
    rcases hor with hin | hblocked
    . obtain ⟨⟨player', hplayer', hout⟩, -⟩ := henters
      obtain rfl : player = player' := Option.some.inj (hclosed.session.symm.trans hplayer')
      exact absurd (hout.symm.trans hin) Bool.false_ne_true
    . have hpasses : req.passes s roomId sid player := by
        rcases hreq with rfl | rfl | rfl
        . exact passes_identify hclosed hrun henters
        . exact passes_voice hclosed hrun hhealthy henters
        . exact passes_media hclosed hrun hhealthy henters
      exact absurd (hblocked.symm.trans hpasses) Bool.false_ne_true

def lobbyPhone : PlayerSession := { id := "phone", userId := "1", username := "anna", rooms := ["lobby123"] }

/--
A community that belongs to somebody else and whose calls are closed to its members.
-/
def lobbyRecord : RoomRecord :=
  { roomId := "lobby123", kind := .community, ownerId := some "2", callsEnabled := false }

def closedLobby : AppState :=
  { twoUsers with
    players := AList.insert "phone" lobbyPhone ∅
    database := AList.insert "lobby123" lobbyRecord ∅ }

theorem closedCalls_closedLobby : ClosedCalls closedLobby "lobby123" "phone" lobbyPhone lobbyRecord :=
  ⟨rfl, by decide, rfl, rfl, rfl, by decide, by decide⟩

/--
Op 98 that names the room does not get past that.
-/
theorem closedCalls_iff_voice
    : ¬∃ tr s', Prog.Trace (PresenceRequest.voice "phone" (callRequest "lobby123" true)).handle closedLobby tr () s'
        ∧ Healthy tr ∧ EntersCall closedLobby s' "lobby123" "phone" := by
  rintro ⟨tr, s', run, hhealthy, henters⟩
  exact (closedCalls_iff closedCalls_closedLobby (.inr (.inl rfl))).2 (.inr (by decide)) tr s' run hhealthy henters

/--
Op 110 does.
-/
theorem not_closedCalls
    : ¬∀ s roomId sid player room d req, ClosedCalls s roomId sid player room →
        (req = .identify sid d ∨ req = .voice sid d ∨ req = .media sid d) →
        ∀ tr s', Prog.Trace (PresenceRequest.handle req) s tr () s' → ¬EntersCall s s' roomId sid := by
  intro hall
  let d : Json := callRequest "lobby123" true
  refine hall closedLobby "lobby123" "phone" lobbyPhone lobbyRecord d (.media "phone" d) closedCalls_closedLobby
    (.inr (.inr rfl)) _ _ (Prog.trace_play Env.calm _ closedLobby) ⟨⟨lobbyPhone, rfl, by decide⟩, ?_⟩
  exact ⟨_, rfl, by decide⟩

end Lqxp
