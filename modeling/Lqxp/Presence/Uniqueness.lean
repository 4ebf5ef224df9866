import Lqxp.Presence.Consistency

/-!
This module contains the proof that an account is in at most one call, as long as nobody identifies as in a call
while another session of the account is in one.
-/

namespace Lqxp

/--
Whether a session of the account is in a call.
-/
def Calling (m : AssocMap String PlayerSession) (userId sid : String) : Prop :=
  ∃ player, m.lookup sid = some player ∧ player.userId = userId ∧ player.isVoiceChat

/--
Sessions are stored under their ids, and no account is in two calls.
-/
structure OneCall (m : AssocMap String PlayerSession) : Prop where
  keyed : m.All fun sid player => player.id = sid
  unique : ∀ userId sid sid', userId ≠ "" → Calling m userId sid → Calling m userId sid' → sid = sid'

section Calling

variable {m m' : AssocMap String PlayerSession} {sid : String}

theorem calling_erase {userId k : String} (h : Calling (m.erase sid) userId k) : Calling m userId k := by
  obtain ⟨player, hplayer, hcall⟩ := h
  rw [AssocMap.lookup_erase] at hplayer
  split at hplayer
  . contradiction
  . exact ⟨player, hplayer, hcall⟩

theorem calling_insert_fresh {userId k : String} (h : Calling (m.insert sid { id := sid }) userId k)
    : Calling m userId k := by
  obtain ⟨player, hplayer, huser, hvoice⟩ := h
  rw [AssocMap.lookup_insert] at hplayer
  split at hplayer
  . obtain rfl := Option.some.inj hplayer
    contradiction
  . exact ⟨player, hplayer, huser, hvoice⟩

theorem calling_modify_ne {f : PlayerSession → PlayerSession} {userId k : String} (hne : k ≠ sid)
    : Calling (m.modify sid f) userId k ↔ Calling m userId k := by
  rw [Calling, AssocMap.lookup_modify_ne hne, Calling]

theorem calling_modify {f : PlayerSession → PlayerSession}
    (hf : ∀ player, m.lookup sid = some player →
      (f player).userId = player.userId ∧ ((f player).isVoiceChat → player.isVoiceChat))
    {userId k : String} (h : Calling (m.modify sid f) userId k) : Calling m userId k := by
  by_cases hk : k = sid
  . subst hk
    obtain ⟨_, hnow, huser, hvoice⟩ := h
    rw [AssocMap.lookup_modify_self] at hnow
    obtain ⟨player, hplayer, rfl⟩ := Option.map_eq_some_iff.1 hnow
    exact ⟨player, hplayer, (hf player hplayer).1 ▸ huser, (hf player hplayer).2 hvoice⟩
  . exact (calling_modify_ne hk).1 h

theorem calling_mapValues {f : String → PlayerSession → PlayerSession}
    (hf : ∀ sid player,
      (f sid player).userId = player.userId ∧ ((f sid player).isVoiceChat → player.isVoiceChat))
    {userId k : String} (h : Calling (m.mapValues f) userId k) : Calling m userId k := by
  obtain ⟨_, hnow, huser, hvoice⟩ := h
  rw [AssocMap.lookup_mapValues] at hnow
  obtain ⟨player, hplayer, rfl⟩ := Option.map_eq_some_iff.1 hnow
  exact ⟨player, hplayer, (hf k player).1 ▸ huser, (hf k player).2 hvoice⟩

namespace OneCall

theorem shrink (h : OneCall m) (hkeyed : m'.All fun sid player => player.id = sid)
    (hcalling : ∀ userId k, Calling m' userId k → Calling m userId k) : OneCall m' where
  keyed := hkeyed
  unique userId k k' huser hk hk' := h.unique userId k k' huser (hcalling _ _ hk) (hcalling _ _ hk')

theorem enter (h : OneCall m) (hkeyed : m'.All fun sid player => player.id = sid)
    (hothers : ∀ userId k, k ≠ sid → Calling m' userId k → Calling m userId k)
    (hsingle : ∀ userId k, userId ≠ "" → k ≠ sid → Calling m' userId sid → ¬Calling m' userId k)
    : OneCall m' where
  keyed := hkeyed
  unique userId k k' huser hk hk' := by
    by_cases heq : k = sid
    . subst heq
      by_contra hne
      exact hsingle userId k' huser (Ne.symm hne) hk hk'
    . by_cases heq' : k' = sid
      . subst heq'
        exact absurd hk (hsingle userId k huser heq hk')
      . exact h.unique userId k k' huser (hothers _ _ heq hk) (hothers _ _ heq' hk')

theorem modify (h : OneCall m) {f : PlayerSession → PlayerSession}
    (hf : ∀ player, m.lookup sid = some player → (f player).id = player.id ∧
      (f player).userId = player.userId ∧ ((f player).isVoiceChat → player.isVoiceChat))
    : OneCall (m.modify sid f) := by
  refine h.shrink (h.keyed.modify fun player hplayer hid => ?_) fun _ _ => calling_modify fun player hplayer => ?_
  . exact (hf player hplayer).1.trans hid
  . exact (hf player hplayer).2

theorem mapValues (h : OneCall m) {f : String → PlayerSession → PlayerSession}
    (hf : ∀ sid player, (f sid player).id = player.id ∧ (f sid player).userId = player.userId
      ∧ ((f sid player).isVoiceChat → player.isVoiceChat))
    : OneCall (m.mapValues f) := by
  refine h.shrink (h.keyed.mapValues fun sid player _ hid => ?_) fun _ _ => calling_mapValues fun sid player => ?_
  . exact (hf sid player).1.trans hid
  . exact (hf sid player).2

end OneCall

end Calling

namespace PlayerSession

theorem enter_call (player : PlayerSession) (roomId : String) : (player.enter roomId).id = player.id
    ∧ (player.enter roomId).userId = player.userId ∧ (player.enter roomId).isVoiceChat = player.isVoiceChat := by
  unfold PlayerSession.enter
  split <;> exact ⟨rfl, rfl, rfl⟩

theorem applySettings_call (player : PlayerSession) (d : Json) (profile : Option UserProfile)
    (status : Option UserPresenceStatus)
    : (player.applySettings d profile status).id = player.id
        ∧ (player.applySettings d profile status).userId = player.userId
        ∧ ((player.applySettings d profile status).isVoiceChat → player.isVoiceChat) := by
  unfold PlayerSession.applySettings
  dsimp only
  split
  . exact ⟨rfl, rfl, fun h => by simp [PlayerSession.hangUp] at h⟩
  . exact ⟨rfl, rfl, fun h => h⟩

theorem setCall_call (player : PlayerSession) (isVoiceChat camera screen : Bool) (callRoom : Option String)
    : (player.setCall isVoiceChat camera screen callRoom).id = player.id
        ∧ (player.setCall isVoiceChat camera screen callRoom).userId = player.userId
        ∧ (player.setCall isVoiceChat camera screen callRoom).isVoiceChat = isVoiceChat := by
  cases isVoiceChat <;> exact ⟨rfl, rfl, rfl⟩

end PlayerSession

section Steps

variable {s s' : AppState} {sid : String} {m m' : AssocMap String PlayerSession}

theorem OneCall.joins (h : OneCall m) (hjoin : Joins sid m m') : OneCall m' := by
  have henter (roomId : String) : OneCall (m.modify sid (·.enter roomId)) := by
    refine h.modify fun player _ => ?_
    obtain ⟨hid, huser, hvoice⟩ := player.enter_call roomId
    exact ⟨hid, huser, fun h => hvoice ▸ h⟩
  obtain ⟨player, roomId, -, -, rfl | rfl⟩ := hjoin
  . exact henter roomId
  . exact (henter roomId).modify fun _ _ => ⟨rfl, rfl, id⟩

theorem OneCall.setCall (h : OneCall m) {player : PlayerSession} {isVoiceChat camera screen : Bool}
    {callRoom : Option String} (hplayer : m.lookup sid = some player)
    (hsingle : isVoiceChat → player.userId ≠ "" → ∀ k, k ≠ sid → ¬Calling m player.userId k)
    : OneCall (m.modify sid (.setCall isVoiceChat camera screen callRoom)) := by
  refine h.enter (h.keyed.modify fun player _ hid => ?_) (fun _ _ hne => (calling_modify_ne hne).1) ?_
  . exact (player.setCall_call ..).1.trans hid
  . rintro userId k huser hne ⟨_, hnow, rfl, hvoice⟩ hother
    rw [AssocMap.lookup_modify_self, hplayer] at hnow
    obtain rfl := Option.some.inj hnow
    obtain ⟨-, hsame, hset⟩ := player.setCall_call isVoiceChat camera screen callRoom
    rw [hsame] at huser hother
    exact hsingle (hset ▸ hvoice) huser k hne ((calling_modify_ne hne).1 hother)

theorem OneCall.setsVoice (h : OneCall m) {isVoiceChat : Bool} {callRoom : Option String}
    (hset : MovesPlayers.SetsVoice sid isVoiceChat callRoom m m') : OneCall m' := by
  obtain ⟨player, m₁, camera, screen, hplayer, hm₁, hset⟩ := hset
  obtain ⟨now, hnow, huser, -⟩ := lookup_of_evicted hplayer hm₁
  obtain ⟨hone, hsingle⟩ : OneCall m₁
      ∧ (isVoiceChat → player.userId ≠ "" → ∀ k, k ≠ sid → ¬Calling m₁ player.userId k) := by
    rw [hm₁]
    split
    next hevicts =>
      refine ⟨h.mapValues fun sid player => ?_, fun _ _ k hne hcalling => ?_⟩
      . split
        . exact ⟨rfl, rfl, fun h => by simp [PlayerSession.hangUp] at h⟩
        . exact ⟨rfl, rfl, id⟩
      . -- Every other session of the account that was in a call has been taken out of it.
        obtain ⟨_, hnow, huser, hvoice⟩ := hcalling
        rw [evictVoice, AssocMap.lookup_mapValues] at hnow
        obtain ⟨other, hother, rfl⟩ := Option.map_eq_some_iff.1 hnow
        by_cases hstale : isStaleVoice sid player.userId other
        . simp [hstale, PlayerSession.hangUp] at hvoice
        . rw [if_neg hstale] at huser hvoice
          apply hstale
          simp [isStaleVoice, h.keyed k other hother, hne, huser, hvoice]
    next hnone =>
      refine ⟨h, fun hvoice huser => ?_⟩
      simp [hvoice, huser] at hnone
  rcases hset with rfl | ⟨-, -, rfl⟩
  . exact hone
  . exact hone.setCall hnow (huser ▸ hsingle)

end Steps

namespace PresenceRequest

/--
Whether a step of a request leaves every account in one call at most: it identifies nobody as in a call while
another session of the account is in one.
-/
def keepsOneCall (s : AppState) (req : PresenceRequest) : Label → Bool
  | .bound sid userId =>
    match req with
    | .identify _ d =>
      !MovesPlayers.isVoiceRequest d || userId = "" || !s.players.values.any (isStaleVoice sid userId)
    | _ => true
  | _ => true

theorem oneCall_step {s s' : AppState} {tr : List (Env × Label)} {req : PresenceRequest}
    (h : Prog.Trace req.handle s tr () s') (hkeeps : ∀ x ∈ tr, req.keepsOneCall s x.2) (hs : OneCall s.players)
    : OneCall s'.players := by
  rcases changes_of_trace h with hsame | hchange
  . rwa [hsame]
  generalize s'.players = m' at hchange
  cases req with
  | connect sid =>
    obtain rfl := hchange
    exact hs.shrink (hs.keyed.insert rfl) fun _ _ => calling_insert_fresh
  | disconnect sid =>
    obtain rfl := hchange
    exact hs.shrink hs.keyed.erase fun _ _ => calling_erase
  | identify sid d =>
    obtain ⟨user, e, huser, hlabel, rfl⟩ := hchange
    refine hs.enter (hs.keyed.modify fun _ _ hid => hid) (fun _ _ hne => (calling_modify_ne hne).1) ?_
    rintro userId k huserId hne ⟨_, hnow, rfl, hvoice⟩ hother
    rw [AssocMap.lookup_modify_self] at hnow
    obtain ⟨player, hplayer, rfl⟩ := Option.map_eq_some_iff.1 hnow
    have huserId : user.id ≠ "" := huserId
    have hvoice : MovesPlayers.isVoiceRequest d = true := hvoice
    obtain ⟨other, hlookup, hsame, hcall⟩ := (calling_modify_ne hne).1 hother
    have hsame : other.userId = user.id := hsame
    have hstale : isStaleVoice sid user.id other = true := by
      simp [isStaleVoice, hs.keyed k other hlookup, hne, hsame, hcall]
    have hkept := hkeeps _ hlabel
    simp only [keepsOneCall, hvoice, huserId, Bool.not_true, decide_false, Bool.or_false, Bool.false_or,
      Bool.not_eq_true', List.any_eq_false] at hkept
    exact hkept other (AssocMap.mem_values_of_lookup hlookup) hstale
  | join sid d => exact hs.joins hchange
  | leave sid d =>
    obtain ⟨roomId, e, hlabel, rfl⟩ := hchange
    exact hs.modify fun _ _ => ⟨rfl, rfl, id⟩
  | settings sid d =>
    obtain ⟨profile, rfl⟩ := hchange
    exact hs.modify fun player _ => player.applySettings_call ..
  | voice sid d => exact hs.setsVoice hchange
  | media sid d =>
    obtain ⟨camera, screen, player, hplayer, hsingle, player', hplayer', -, -, rfl⟩ := hchange
    refine hs.setCall hplayer fun hvoice huser k hne ⟨other, hother, hsame, hcall⟩ => ?_
    have hstale := hsingle hvoice huser k other hother
    simp [isStaleVoice, hs.keyed k other hother, hne, hsame, hcall] at hstale
  | deafened sid d =>
    obtain ⟨player, isDeafened, hplayer, hvoice, rfl⟩ := hchange
    exact hs.modify fun _ _ => ⟨rfl, rfl, id⟩
  | callAccess sid d => exact hchange.elim
  | kick sid d | ban sid d =>
    obtain ⟨userId, roomId, e, hlabel, rfl⟩ := hchange
    refine hs.mapValues fun _ _ => ?_
    split <;> exact ⟨rfl, rfl, id⟩
  | deleteRoom sid d =>
    obtain ⟨roomId, e, hlabel, rfl⟩ := hchange
    exact hs.mapValues fun _ _ => ⟨rfl, rfl, id⟩

end PresenceRequest

section Runs

variable {start s : AppState} {log : List (PresenceRequest × List (Env × Label))}

/--
After any requests that leave every account in one call at most, each account is in one call at most.
-/
theorem oneCall_of_served (hstart : start.players = ∅)
    (h : Prog.Served PresenceRequest.handle (fun s req tr => tr.all fun x => req.keepsOneCall s x.2) start log s)
    {userId sid sid' : String} (huser : userId ≠ "") (hcall : Calling s.players userId sid)
    (hcall' : Calling s.players userId sid') : sid = sid' := by
  refine (h.invariant (fun s => OneCall s.players) ?_ ?_).unique userId sid sid' huser hcall hcall'
  . exact fun s req tr s' hrun hkeeps hs => PresenceRequest.oneCall_step hrun (List.all_eq_true.1 hkeeps) hs
  . rw [hstart]
    refine ⟨.empty, fun userId k k' _ ⟨player, hplayer, _⟩ => ?_⟩
    simp at hplayer

/--
Another device of the account connects while the first one is in a call.
-/
def secondDevice (isVoiceChat : Bool) : List (PresenceRequest × Env) :=
  callingScript ++ [(.connect "laptop", Env.calm), (.identify "laptop" (.obj
    [("token", .str "a"), ("isVoiceChat", .bool isVoiceChat)]), Env.calm)]

/--
The second device takes the call over.
-/
theorem oneCall_of_served_twoDevices
    : ∃ log s, Prog.Served PresenceRequest.handle (fun s req tr => tr.all fun x => req.keepsOneCall s x.2)
          twoUsers log s
        ∧ Calling s.players "1" "laptop" ∧ ∀ sid, Calling s.players "1" sid → sid = "laptop" := by
  have hcalls : ((Prog.Served.playAll PresenceRequest.handle
      (fun s req tr => tr.all fun x => req.keepsOneCall s x.2)
      (secondDevice false ++ [(.voice "laptop" (.obj [("isVoiceChat", .bool true)]), Env.calm)])
      twoUsers).map (·.2)).bind (fun s => (s.players.lookup "laptop").map fun player =>
      (player.userId, player.isVoiceChat)) = some ("1", true) := by decide
  obtain ⟨log, s, hserved, hlookup⟩ := Prog.Served.exists_of_playAll hcalls
  obtain ⟨player, hplayer, hfields⟩ := Option.map_eq_some_iff.1 hlookup
  obtain ⟨huser, hvoice⟩ := Prod.mk.inj hfields
  have hcalling : Calling s.players "1" "laptop" := ⟨player, hplayer, huser, hvoice⟩
  exact ⟨log, s, hserved, hcalling, fun sid h => oneCall_of_served rfl hserved (by decide) h hcalling⟩

/--
A device that identifies as in a call does not ask whether another one is.
-/
theorem not_oneCall
    : ¬∀ start s log, start.players = ∅ → Prog.Served PresenceRequest.handle (fun _ _ _ => True) start log s →
        ∀ userId sid sid', userId ≠ "" → Calling s.players userId sid → Calling s.players userId sid' →
          sid = sid' := by
  intro hall
  have hcalls : ((Prog.Served.playAll PresenceRequest.handle (fun _ _ _ => true) (secondDevice true)
      twoUsers).map (·.2)).bind (fun s => some (["phone", "laptop"].map fun sid =>
      (s.players.lookup sid).map fun player => (player.userId, player.isVoiceChat)))
      = some [some ("1", true), some ("1", true)] := by decide
  obtain ⟨log, s, hserved, hlookup⟩ := Prog.Served.exists_of_playAll hcalls
  obtain ⟨hphone, hlaptop⟩ := List.cons.inj (Option.some.inj hlookup)
  obtain ⟨phone, hphone, hfields⟩ := Option.map_eq_some_iff.1 hphone
  obtain ⟨laptop, hlaptop, hfields'⟩ := Option.map_eq_some_iff.1 (List.cons.inj hlaptop).1
  obtain ⟨huser, hvoice⟩ := Prod.mk.inj hfields
  obtain ⟨huser', hvoice'⟩ := Prod.mk.inj hfields'
  have hsame := hall twoUsers s log rfl (hserved.mono fun _ _ _ _ => trivial) "1" "phone" "laptop" (by decide)
    ⟨phone, hphone, huser, hvoice⟩ ⟨laptop, hlaptop, huser', hvoice'⟩
  exact absurd hsame (by decide)

end Runs

end Lqxp
