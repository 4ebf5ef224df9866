import Lqxp.Presence.System

/-!
This module contains what the handlers that can put a session in a call count against the rate limits.
-/

namespace Lqxp

/--
A piece of a handler that leaves the rate limits as they are.
-/
abbrev KeepsLimits (p : Proto α) : Prop := p.Preserves AppState.rateLimits

namespace KeepsLimits

theorem pure (a : α) : KeepsLimits (pure a) := Prog.Preserves.pure a

theorem bind {p : Proto α} {f : α → Proto β} (hp : KeepsLimits p) (hf : ∀ a, KeepsLimits (f a))
    : KeepsLimits (p >>= f) :=
  Prog.Preserves.bind hp hf

theorem look (f : Env → AppState → α) : KeepsLimits (look f) := .atom fun _ _ => rfl

theorem roomRecord (roomId : String) : KeepsLimits (roomRecord roomId) := .atom fun _ _ => rfl

section Replies

theorem broadcastToRoom (gameId : String) (payload : Json) : KeepsLimits (broadcastToRoom gameId payload) :=
  .atom fun _ _ => rfl

theorem respondToSender (sid : String) (payload : Json) : KeepsLimits (respondToSender sid payload) := by
  refine .atom fun e s => ?_
  split <;> rfl

theorem respondError (sid : String) (op : Nat) (text : String) (reqId : Option String)
    : KeepsLimits (respondError sid op text reqId) :=
  .bind (.respondToSender _ _) fun _ => .pure _

theorem respondOk (sid : String) (op : Nat) (d : List (String × Json)) (reqId : Option String)
    : KeepsLimits (respondOk sid op d reqId) :=
  .bind (.respondToSender _ _) fun _ => .pure _

theorem broadcastSyncPeerEvent (userId event clientId platform : String) (exclude : Option String)
    : KeepsLimits (broadcastSyncPeerEvent userId event clientId platform exclude) := by
  unfold Lqxp.broadcastSyncPeerEvent
  split
  . exact .pure _
  . exact .atom fun _ _ => rfl

end Replies

section Identify

theorem authenticateToken (token : String) : KeepsLimits (authenticateToken token) := by
  intro s tr a s' h
  obtain ⟨-, rfl, -⟩ := trace_authenticateToken h
  rfl

theorem updateStatus (userId : String) (status : UserPresenceStatus)
    : KeepsLimits (updateStatus userId status) := by
  refine .atom fun e s => ?_
  split <;> rfl

theorem completeIdentify (sid : String) (d : Json) (account : AuthenticatedUser)
    (status : UserPresenceStatus) (reqId : Option String)
    : KeepsLimits (completeIdentify sid d account status reqId) := by
  refine .bind (.atom fun e s => ?_) fun bound => ?_
  . split <;> rfl
  . split
    . refine .bind (.look _) fun defaultRoom => .bind (.respondToSender _ _) fun _ => ?_
      split
      . exact .bind (.broadcastSyncPeerEvent _ _ _ _ _) fun _ => .pure _
      . exact .pure _
    . exact .pure _

theorem identifyPlayer (sid : String) (d : Json) : KeepsLimits (identifyPlayer sid d) := by
  unfold Lqxp.identifyPlayer
  dsimp only
  split
  . refine .bind (.authenticateToken _) fun answer => ?_
    split
    . exact .respondError _ _ _ _
    . exact .respondError _ _ _ _
    . split
      . exact .bind (.updateStatus _ _) fun _ => .completeIdentify _ _ _ _ _
      . exact .completeIdentify _ _ _ _ _
  . exact .respondError _ _ _ _

end Identify

section Calls

theorem callsSwitchedOff (isVoiceChat : Bool) : KeepsLimits (callsSwitchedOff isVoiceChat) := by
  unfold Lqxp.callsSwitchedOff
  split
  . exact .bind (.look _) fun _ => .pure _
  . exact .pure _

theorem voiceRefused (userId : String) (callRoom : Option String)
    : KeepsLimits (voiceRefused userId callRoom) := by
  unfold Lqxp.voiceRefused
  split
  . refine .bind (.roomRecord _) fun room => ?_
    split
    . exact .bind (.look _) fun _ => .pure _
    . exact .pure _
  . exact .pure _

theorem closeCallAccess (userId : String) (callRoom : Option String)
    : KeepsLimits (closeCallAccess userId callRoom) := by
  unfold Lqxp.closeCallAccess
  split
  . refine .bind (.roomRecord _) fun room => ?_
    split
    . split
      . exact .bind (.atom fun _ _ => rfl) fun _ => .broadcastToRoom _ _
      . exact .pure _
    . exact .pure _
  . exact .pure _

theorem broadcastVoice (isVoiceChat : Bool) (media : List (String × Json)) (player : PlayerSession)
    (rooms : List String) : KeepsLimits (broadcastVoice isVoiceChat media player rooms) := by
  induction rooms with
  | nil => exact .pure _
  | cons gameId rooms ih => exact .bind (.broadcastToRoom _ _) fun _ => ih

theorem broadcastEvicted (stale : List PlayerSession) : KeepsLimits (broadcastEvicted stale) := by
  induction stale with
  | nil => exact .pure _
  | cons player stale ih => exact .bind (.broadcastVoice _ _ _ _) fun _ => ih

theorem broadcastCallMedia (isVoiceChat : Bool) (media : Json) (player : PlayerSession)
    (rooms : List String) : KeepsLimits (broadcastCallMedia isVoiceChat media player rooms) := by
  induction rooms with
  | nil => exact .pure _
  | cons gameId rooms ih => exact .bind (.broadcastToRoom _ _) fun _ => ih

theorem completeVoice (sid : String) (isVoiceChat camera screen : Bool) (callRoom : Option String)
    (reqId : Option String) : KeepsLimits (completeVoice sid isVoiceChat camera screen callRoom reqId) := by
  refine .bind (.atom fun e s => ?_) fun result => ?_
  . split
    . rfl
    . dsimp only
      split <;> rfl
  . split
    . exact .respondError _ _ _ _
    . exact .bind (.broadcastVoice _ _ _ _) fun _ => .bind (.broadcastEvicted _) fun _ => .respondOk _ _ _ _

end Calls

end KeepsLimits

/--
The key under which the joins of an account are counted.
-/
def joinKey (userId : String) : String := "voice_join:user:" ++ userId

section Hits

variable {s s' : AppState} {sid : String} {d : Json} {tr : List (Env × Label)} {b : Bool}

theorem limits_of_hit {key : String} {limit windowMs : Nat} {f : Bool → Proto α} {a : α}
    (hf : ∀ limited, KeepsLimits (f limited))
    (h : Prog.Trace (hitRateLimit key limit windowMs >>= f) s tr a s')
    : ∃ x ∈ tr, s'.rateLimits = (rateLimitHit x.1.now key limit windowMs s.rateLimits).2 := by
  obtain ⟨limited, s₁, tr₁, tr₂, hlimit, hrest, rfl⟩ := Prog.trace_bind_iff.1 h
  obtain ⟨e, rfl, -, rfl⟩ := trace_hitRateLimit hlimit
  exact ⟨(e, .quiet), by simp, hf _ _ _ _ _ hrest⟩

theorem limits_updateCallMediaState (h : Prog.Trace (updateCallMediaState sid d) s tr b s')
    : ∃ x ∈ tr, s'.rateLimits
        = (rateLimitHit x.1.now ("call_media:session:" ++ sid) 10 5000 s.rateLimits).2 := by
  refine limits_of_hit (fun limited => ?_) h
  split
  . exact .respondError _ _ _ _
  . refine .bind (.callsSwitchedOff _) fun off => ?_
    split
    . exact .respondError _ _ _ _
    . split
      refine .bind (.atom fun e s => ?_) fun result => ?_
      . split
        . rfl
        . dsimp only
          split
          . rfl
          . split
            . rfl
            . split <;> rfl
      . split
        . exact .respondError _ _ _ _
        . exact .bind (.broadcastCallMedia _ _ _ _) fun _ => .respondOk _ _ _ _

theorem trace_hitVoiceJoin {userId : String} {isJoin limited : Bool}
    (h : Prog.Trace (hitVoiceJoin sid userId isJoin) s tr limited s')
    : isJoin = false ∧ s' = s
        ∨ ∃ x ∈ tr, let key := if userId = "" then "voice_join:session:" ++ sid else joinKey userId
          s' = { s with rateLimits := (rateLimitHit x.1.now key voiceJoinsPerMinute 60000 s.rateLimits).2 }
            ∧ limited = (rateLimitHit x.1.now key voiceJoinsPerMinute 60000 s.rateLimits).1 := by
  unfold hitVoiceJoin at h
  split at h
  . obtain ⟨e, rfl, rfl, rfl⟩ := trace_hitRateLimit h
    exact .inr ⟨_, List.mem_singleton_self _, rfl, rfl⟩
  next hjoin =>
    obtain ⟨-, -, rfl⟩ := Prog.trace_done_iff.1 h
    exact .inl ⟨by simpa using hjoin, rfl⟩

/--
What op 98 counts: one hit under a key of its own, and another one when it looks like a join. A join over the
limit changes no session.
-/
theorem limits_updateVoiceChat (h : Prog.Trace (updateVoiceChat sid d) s tr b s')
    : ∃ e rest buckets, tr = (e, .quiet) :: rest
        ∧ buckets = (rateLimitHit e.now ("voice_chat:session:" ++ sid) 10 5000 s.rateLimits).2
        ∧ (s'.rateLimits = buckets ∧ (s'.players = s.players ∨ MovesPlayers.isVoiceRequest d = false
            ∨ ∃ player, s.players.lookup sid = some player ∧ player.isVoiceChat)
          ∨ ∃ x ∈ rest, ∃ userId, (∀ player, s.players.lookup sid = some player → player.userId = userId)
            ∧ let key := if userId = "" then "voice_join:session:" ++ sid else joinKey userId
              s'.rateLimits = (rateLimitHit x.1.now key voiceJoinsPerMinute 60000 buckets).2
                ∧ ((rateLimitHit x.1.now key voiceJoinsPerMinute 60000 buckets).1 → s'.players = s.players)) := by
  obtain ⟨limited, s₁, tr₁, tr₂, hlimit, h₁, rfl⟩ := Prog.trace_bind_iff.1 h
  have hplayers₁ : s₁.players = s.players := KeepsPlayers.hitRateLimit _ _ _ _ _ _ _ hlimit
  obtain ⟨e, rfl, -, hs₁⟩ := trace_hitRateLimit hlimit
  refine ⟨e, tr₂, s₁.rateLimits, rfl, by rw [hs₁], ?_⟩
  rw [← hplayers₁]
  clear hlimit hs₁ hplayers₁
  dsimp only at h₁
  split at h₁
  . exact .inl ⟨KeepsLimits.respondError _ _ _ _ _ _ _ _ h₁, .inl (KeepsPlayers.respondError _ _ _ _ _ _ _ _ h₁)⟩
  obtain ⟨off, s₂, tr₃, tr₄, hoff, h₂, rfl⟩ := Prog.trace_bind_iff.1 h₁
  rw [← KeepsPlayers.callsSwitchedOff _ _ _ _ _ hoff, ← KeepsLimits.callsSwitchedOff _ _ _ _ _ hoff]
  split at h₂
  . exact .inl ⟨KeepsLimits.respondError _ _ _ _ _ _ _ _ h₂, .inl (KeepsPlayers.respondError _ _ _ _ _ _ _ _ h₂)⟩
  obtain ⟨⟨userId, alreadyInVoice⟩, s₃, tr₅, tr₆, hlook, h₃, rfl⟩ := Prog.trace_bind_iff.1 h₂
  obtain ⟨e', rfl, hsession, rfl⟩ := trace_look hlook
  obtain ⟨limited, s₄, tr₇, tr₈, hjoin, h₄, rfl⟩ := Prog.trace_bind_iff.1 h₃
  -- What follows leaves the limits alone, and all sessions when the join is over the limit.
  have htail : s'.rateLimits = s₄.rateLimits ∧ (limited → s'.players = s₄.players) := by
    split at h₄
    . exact ⟨KeepsLimits.respondError _ _ _ _ _ _ _ _ h₄, fun _ => KeepsPlayers.respondError _ _ _ _ _ _ _ _ h₄⟩
    next hallowed =>
      refine ⟨?_, fun h => absurd h hallowed⟩
      split at h₄
      . obtain ⟨refused, s₅, tr₉, tr₁₀, hrefused, h₅, rfl⟩ := Prog.trace_bind_iff.1 h₄
        rw [← KeepsLimits.voiceRefused _ _ _ _ _ _ hrefused]
        split at h₅
        . exact KeepsLimits.respondError _ _ _ _ _ _ _ _ h₅
        . exact KeepsLimits.completeVoice _ _ _ _ _ _ _ _ _ _ h₅
      . exact (KeepsLimits.bind (.closeCallAccess _ _) fun _ => .completeVoice _ _ _ _ _ _) _ _ _ _ h₄
  rcases trace_hitVoiceJoin hjoin with ⟨hno, rfl⟩ | ⟨x, hx, hs₄, hlimited⟩
  . refine .inl ⟨htail.1, .inr ?_⟩
    cases hplayer : s₄.players.lookup sid with
    | none =>
      rw [hplayer] at hsession
      obtain ⟨-, rfl⟩ := Prod.mk.inj hsession
      left
      simpa [MovesPlayers.isVoiceRequest] using hno
    | some player =>
      rw [hplayer] at hsession
      obtain ⟨-, rfl⟩ := Prod.mk.inj hsession
      by_cases hvoice : MovesPlayers.isVoiceRequest d
      . right
        simp only [MovesPlayers.isVoiceRequest] at hvoice
        exact ⟨player, rfl, by simpa [hvoice] using hno⟩
      . exact .inl (by simpa using hvoice)
  . refine .inr ⟨x, by simp [hx], userId, fun player hplayer => ?_, ?_⟩
    . rw [hplayer] at hsession
      exact (Prod.mk.inj hsession).1.symm
    . rw [hs₄] at htail
      exact ⟨htail.1, fun hover => htail.2 (hlimited.trans hover)⟩

end Hits

end Lqxp
