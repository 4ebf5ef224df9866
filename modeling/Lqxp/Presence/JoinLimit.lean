import Lqxp.Core.Security.Sharing
import Lqxp.Presence.Limits
import Lqxp.Presence.Uniqueness

/-!
This module contains the proof that the calls that an account joins in a minute are limited, as long as nobody
gets into a call past op 98.
-/

namespace Lqxp

abbrev PresenceVisit := Prog.Visit PresenceRequest Env AppState Label

def PresenceRequest.isCallOp : PresenceRequest → Bool
  | .identify .. | .voice .. | .media .. => true
  | _ => false

namespace PresenceVisit

/--
Whether a request takes some session of the account into a call.
-/
def turnsOn (visit : PresenceVisit) (userId : String) : Bool :=
  visit.before.players.entries.any fun x => !x.2.isVoiceChat
    && (visit.after.players.lookup x.1).any fun now => now.userId = userId && now.isVoiceChat

/--
Whether a request is done in an interval of a minute.
-/
def endsIn (visit : PresenceVisit) (start : Nat) : Bool :=
  (visit.tr.getLast?).any fun x => start ≤ x.1.now && x.1.now ≤ start + 60000

/--
Whether a request takes no session of the account into a call past op 98: it neither identifies a session that
is in no call as in one, nor sets the media of one, unless op 110 refuses that.
-/
def joinsByVoice (visit : PresenceVisit) (userId : String) : Bool :=
  match visit.req with
  | .identify sid d => !MovesPlayers.isVoiceRequest d || (visit.before.players.lookup sid).any (·.isVoiceChat)
    || visit.tr.all fun x =>
      match x.2 with
      | .bound _ userId' => userId' ≠ userId
      | _ => true
  | .media sid d => !MovesPlayers.isVoiceRequest d || (visit.before.players.lookup sid).all fun player =>
    player.isVoiceChat || player.userId ≠ userId || player.status = .invisible
      || (player.userId ≠ "" && visit.before.players.values.any (isStaleVoice sid player.userId))
      || !(namedCallRoom d).all player.rooms.contains
  | _ => true

theorem turnsOn_iff {visit : PresenceVisit} {userId : String}
    : visit.turnsOn userId ↔ ∃ sid old, visit.before.players.lookup sid = some old ∧ old.isVoiceChat = false
        ∧ Calling visit.after.players userId sid := by
  simp only [turnsOn, List.any_eq_true, Bool.and_eq_true, Bool.not_eq_true', Option.any_eq_true]
  constructor
  . rintro ⟨⟨sid, old⟩, hmem, hold, now, hnow, hcall⟩
    refine ⟨sid, old, AList.mem_lookup_iff.2 hmem, hold, now, hnow, ?_⟩
    simpa using hcall
  . rintro ⟨sid, old, hlookup, hold, now, hnow, hcall⟩
    refine ⟨⟨sid, old⟩, AList.mem_lookup_iff.1 hlookup, hold, now, hnow, ?_⟩
    simpa using hcall

end PresenceVisit

section Calling

variable {m m' : AssocMap String PlayerSession} {sid userId k : String}

theorem not_calling_of_lookup {old : PlayerSession} (hlookup : m.lookup k = some old)
    (hold : old.isVoiceChat = false) : ¬Calling m userId k := by
  rintro ⟨player, hplayer, -, hvoice⟩
  obtain rfl : old = player := Option.some.inj (hlookup.symm.trans hplayer)
  simp [hold] at hvoice

theorem calling_setsVoice {isVoiceChat : Bool} {callRoom : Option String}
    (h : MovesPlayers.SetsVoice sid isVoiceChat callRoom m m') (hcall : Calling m' userId k)
    : Calling m userId k ∨ k = sid ∧ isVoiceChat ∧ ∃ player, m.lookup sid = some player ∧ player.userId = userId := by
  obtain ⟨player, m₁, camera, screen, hplayer, hm₁, hset⟩ := h
  have hevicted {userId k : String} (h : Calling m₁ userId k) : Calling m userId k := by
    rw [hm₁] at h
    split at h
    . refine calling_mapValues (fun sid player => ?_) h
      split
      . exact ⟨rfl, fun h => by simp [PlayerSession.hangUp] at h⟩
      . exact ⟨rfl, id⟩
    . exact h
  rcases hset with rfl | ⟨-, -, rfl⟩
  . exact .inl (hevicted hcall)
  by_cases hk : k = sid
  . cases isVoiceChat with
    | false =>
      left
      refine hevicted (calling_modify (fun player _ => ?_) hcall)
      exact ⟨rfl, fun h => by simp [PlayerSession.setCall, PlayerSession.hangUp] at h⟩
    | true =>
      obtain ⟨_, hafter, huser, -⟩ := hcall
      rw [hk, AssocMap.lookup_modify_self] at hafter
      obtain ⟨now, hnow, rfl⟩ := Option.map_eq_some_iff.1 hafter
      obtain ⟨now', hnow', hsame, -⟩ := lookup_of_evicted hplayer hm₁
      obtain rfl : now = now' := Option.some.inj (hnow.symm.trans hnow')
      exact .inr ⟨hk, rfl, player, hplayer, hsame.symm.trans huser⟩
  . exact .inl (hevicted ((calling_modify_ne hk).1 hcall))

end Calling

section Steps

variable {s s' : AppState} {tr : List (Env × Label)} {req : PresenceRequest} {userId : String}

theorem any_isStaleVoice_eq_false {players : AssocMap String PlayerSession} {sid : String}
    (hsingle : userId ≠ "" → ∀ k player, players.lookup k = some player → isStaleVoice sid userId player = false)
    : (userId ≠ "" && players.values.any (isStaleVoice sid userId)) = false := by
  rw [Bool.eq_false_iff]
  intro hstale
  obtain ⟨huser, hany⟩ : userId ≠ "" ∧ players.values.any (isStaleVoice sid userId) := by
    simpa using hstale
  obtain ⟨player, hmem, hplayer⟩ := List.any_eq_true.1 hany
  obtain ⟨k, hlookup⟩ := AssocMap.exists_lookup_of_mem_values hmem
  rw [hsingle huser k player hlookup] at hplayer
  exact absurd hplayer Bool.false_ne_true

theorem voice_of_turnsOn (h : Prog.Trace req.handle s tr () s') (hop : req.isCallOp)
    (hjoins : PresenceVisit.joinsByVoice { before := s, req, tr, after := s' } userId)
    (hturns : PresenceVisit.turnsOn { before := s, req, tr, after := s' } userId)
    : ∃ sid d player, req = .voice sid d ∧ MovesPlayers.isVoiceRequest d ∧ s.players.lookup sid = some player
        ∧ player.userId = userId ∧ player.isVoiceChat = false := by
  obtain ⟨k, old, hlookup, hold, hcall⟩ := PresenceVisit.turnsOn_iff.1 hturns
  have hbefore : ¬Calling s.players userId k := not_calling_of_lookup hlookup hold
  rcases PresenceRequest.changes_of_trace h with hsame | hchange
  . rw [hsame] at hcall
    exact absurd hcall hbefore
  generalize s'.players = m' at hchange hcall
  cases req with
  | identify sid d =>
    obtain ⟨user, e, huser, hlabel, rfl⟩ := hchange
    by_cases hk : k = sid
    . subst hk
      obtain ⟨_, hafter, hsame, hvoice⟩ := hcall
      rw [AssocMap.lookup_modify_self, hlookup] at hafter
      obtain rfl := Option.some.inj hafter
      have hsame : user.id = userId := hsame
      have hvoice : MovesPlayers.isVoiceRequest d = true := hvoice
      have hlabels : tr.all (fun x => match x.2 with
          | .bound _ userId' => userId' ≠ userId
          | _ => true) = true := by
        simpa [PresenceVisit.joinsByVoice, hvoice, hlookup, hold] using hjoins
      have hother := List.all_eq_true.1 hlabels _ hlabel
      simp [hsame] at hother
    . exact absurd ((calling_modify_ne hk).1 hcall) hbefore
  | voice sid d =>
    rcases calling_setsVoice hchange hcall with hcall | ⟨rfl, hvoice, player, hplayer, huser⟩
    . exact absurd hcall hbefore
    . obtain rfl : old = player := Option.some.inj (hlookup.symm.trans hplayer)
      exact ⟨k, d, old, rfl, hvoice, hlookup, huser, hold⟩
  | media sid d =>
    obtain ⟨camera, screen, player, hplayer, hsingle, player', hplayer', hroom, hvisible, rfl⟩ := hchange
    obtain rfl : player = player' := Option.some.inj (hplayer.symm.trans hplayer')
    by_cases hk : k = sid
    . subst hk
      obtain rfl : old = player := Option.some.inj (hlookup.symm.trans hplayer)
      obtain ⟨_, hafter, hsame, hvoice⟩ := hcall
      rw [AssocMap.lookup_modify_self, hlookup] at hafter
      obtain rfl := Option.some.inj hafter
      obtain ⟨-, huser, hset⟩ := old.setCall_call (MovesPlayers.isVoiceRequest d) camera screen (namedCallRoom d)
      have hrequest : MovesPlayers.isVoiceRequest d = true := hset.symm.trans hvoice
      obtain rfl : old.userId = userId := huser.symm.trans hsame
      have hstale := any_isStaleVoice_eq_false (hsingle hrequest)
      have hrooms : (namedCallRoom d).all old.rooms.contains := by
        cases hnamed : namedCallRoom d with
        | none => rfl
        | some room => simpa using hroom room hnamed
      have hstatus : old.status ≠ .invisible := hvisible hrequest
      simp only [PresenceVisit.joinsByVoice, hrequest, hlookup, Option.all_some, hold, hstale, hrooms, hstatus,
        ne_eq, not_true, decide_false, Bool.not_true, Bool.or_false] at hjoins
      exact absurd hjoins Bool.false_ne_true
    . exact absurd ((calling_modify_ne hk).1 hcall) hbefore
  | _ => exact absurd hop Bool.false_ne_true

theorem joinKey_ne_voiceChat (userId sid : String) : joinKey userId ≠ "voice_chat:session:" ++ sid :=
  Text.append_ne_append 16 (by decide) (by decide) (by decide) _ _

theorem joinKey_ne_callMedia (userId sid : String) : joinKey userId ≠ "call_media:session:" ++ sid :=
  Text.append_ne_append 16 (by decide) (by decide) (by decide) _ _

theorem joinKey_ne_joinSession (userId sid : String) : joinKey userId ≠ "voice_join:session:" ++ sid :=
  Text.append_ne_append 16 (by decide) (by decide) (by decide) _ _

theorem joinKey_inj {userId userId' : String} (h : joinKey userId = joinKey userId') : userId = userId' := by
  have hchars : (joinKey userId).toList = (joinKey userId').toList := by rw [h]
  rw [joinKey, joinKey, String.toList_append, String.toList_append] at hchars
  exact String.toList_inj.1 (List.append_cancel_left hchars)

def joinRule : FixedWindow.Rule := { limit := voiceJoinsPerMinute, length := 60000, maxCount := 2 ^ 32 - 1 }

theorem limit_joinRule_lt : joinRule.limit < joinRule.maxCount := by
  decide

theorem not_turnsOn_of_players (hplayers : s'.players = s.players)
    : PresenceVisit.turnsOn { before := s, req, tr, after := s' } userId = false := by
  rw [← Bool.not_eq_true, PresenceVisit.turnsOn_iff]
  rintro ⟨sid, old, hlookup, hold, hcall⟩
  exact not_calling_of_lookup hlookup hold (hplayers ▸ hcall)

/--
What a request does to the window of the account's joins: nothing, and it takes no session of the account into a
call, or it counts a hit, and takes one into a call only if that hit is allowed.
-/
def CountsJoins (userId : String) (visit : PresenceVisit) (now : Nat) (window : Option FixedWindow) : Prop :=
  (visit.turnsOn userId = false ∧ ∃ now', (now' = now ∨ ∃ x ∈ visit.tr, now' = x.1.now)
      ∧ Tracks joinRule (joinKey userId) now' visit.after.rateLimits window)
    ∨ ∃ x ∈ visit.tr, (visit.turnsOn userId → (FixedWindow.hit joinRule x.1.now window).count ≤ joinRule.limit)
      ∧ Tracks joinRule (joinKey userId) x.1.now visit.after.rateLimits
        (some (FixedWindow.hit joinRule x.1.now window))

theorem countsJoins_voice {sid : String} {d : Json} {now : Nat} {window : Option FixedWindow}
    (h : Prog.Trace (PresenceRequest.voice sid d).handle s tr () s') (huser : userId ≠ "")
    (hclock : (tr.map (·.1.now)).Pairwise (· ≤ ·)) (hnow : ∀ x ∈ tr, now ≤ x.1.now)
    (htracks : Tracks joinRule (joinKey userId) now s.rateLimits window)
    : CountsJoins userId { before := s, req := .voice sid d, tr, after := s' } now window := by
  have hturn (hturns : PresenceVisit.turnsOn { before := s, req := .voice sid d, tr, after := s' } userId)
      : MovesPlayers.isVoiceRequest d ∧ ∃ player, s.players.lookup sid = some player
        ∧ player.userId = userId ∧ player.isVoiceChat = false := by
    obtain ⟨_, _, player, heq, hvoice, hplayer⟩ := voice_of_turnsOn h rfl rfl hturns
    cases heq
    exact ⟨hvoice, player, hplayer⟩
  obtain ⟨b, hrun⟩ := PresenceRequest.trace_answer h
  obtain ⟨e, rest, buckets, rfl, hbuckets, hcounts⟩ := limits_updateVoiceChat hrun
  have hfirst : Tracks joinRule (joinKey userId) e.now buckets window := by
    rw [hbuckets]
    exact (htracks.later (hnow _ List.mem_cons_self)).hit_of_ne (joinKey_ne_voiceChat userId sid) _ _
  rcases hcounts with ⟨hlimits, hquiet⟩ | ⟨x, hx, userId', hsame, hlimits, hover⟩
  . refine .inl ⟨?_, e.now, .inr ⟨_, List.mem_cons_self, rfl⟩, hlimits ▸ hfirst⟩
    rw [← Bool.not_eq_true]
    intro hturns
    obtain ⟨hvoice, player, hplayer, -, hold⟩ := hturn hturns
    rcases hquiet with hplayers | hno | ⟨player', hplayer', hin⟩
    . rw [not_turnsOn_of_players hplayers] at hturns
      exact absurd hturns Bool.false_ne_true
    . exact absurd (hno.symm.trans hvoice) Bool.false_ne_true
    . obtain rfl : player = player' := Option.some.inj (hplayer.symm.trans hplayer')
      exact absurd (hold.symm.trans hin) Bool.false_ne_true
  . have hlater : Tracks joinRule (joinKey userId) x.1.now buckets window :=
      hfirst.later ((List.pairwise_cons.1 hclock).1 _ (List.mem_map_of_mem hx))
    by_cases heq : userId' = userId
    . subst heq
      right
      rw [if_neg huser] at hlimits hover
      obtain ⟨hhit, hnext⟩ := hlater.hit rfl
      refine ⟨x, List.mem_cons_of_mem _ hx, fun hturns => ?_, hlimits ▸ hnext⟩
      by_contra hlimit
      rw [not_turnsOn_of_players (hover (hhit.trans (decide_eq_true (Nat.lt_of_not_le hlimit))))] at hturns
      exact absurd hturns Bool.false_ne_true
    . left
      refine ⟨?_, x.1.now, .inr ⟨x, List.mem_cons_of_mem _ hx, rfl⟩, ?_⟩
      . rw [← Bool.not_eq_true]
        intro hturns
        obtain ⟨-, player, hplayer, hplayerId, -⟩ := hturn hturns
        exact heq ((hsame player hplayer).symm.trans hplayerId)
      . rw [show s'.rateLimits = _ from hlimits]
        refine hlater.hit_of_ne ?_ _ _
        split
        . exact joinKey_ne_joinSession userId sid
        . exact fun h => heq (joinKey_inj h).symm

theorem countsJoins_of_trace {now : Nat} {window : Option FixedWindow} (h : Prog.Trace req.handle s tr () s')
    (hop : req.isCallOp) (huser : userId ≠ "")
    (hjoins : PresenceVisit.joinsByVoice { before := s, req, tr, after := s' } userId)
    (hclock : (tr.map (·.1.now)).Pairwise (· ≤ ·)) (hnow : ∀ x ∈ tr, now ≤ x.1.now)
    (htracks : Tracks joinRule (joinKey userId) now s.rateLimits window)
    : CountsJoins userId { before := s, req, tr, after := s' } now window := by
  have hturn (hvoice : ∀ sid d, req ≠ .voice sid d)
      : PresenceVisit.turnsOn { before := s, req, tr, after := s' } userId = false := by
    rw [← Bool.not_eq_true]
    intro hturns
    obtain ⟨sid, d, player, heq, -⟩ := voice_of_turnsOn h hop hjoins hturns
    exact hvoice sid d heq
  cases req with
  | identify sid d =>
    obtain ⟨b, hrun⟩ := PresenceRequest.trace_answer h
    refine .inl ⟨hturn (by simp), now, .inl rfl, ?_⟩
    rw [show s'.rateLimits = _ from KeepsLimits.identifyPlayer _ _ _ _ _ _ hrun]
    exact htracks
  | voice sid d => exact countsJoins_voice h huser hclock hnow htracks
  | media sid d =>
    obtain ⟨b, hrun⟩ := PresenceRequest.trace_answer h
    obtain ⟨x, hx, hlimits⟩ := limits_updateCallMediaState hrun
    refine .inl ⟨hturn (by simp), x.1.now, .inr ⟨x, hx, rfl⟩, ?_⟩
    rw [show s'.rateLimits = _ from hlimits]
    exact (htracks.later (hnow x hx)).hit_of_ne (joinKey_ne_callMedia userId sid) _ _
  | _ => exact absurd hop Bool.false_ne_true

end Steps

section Runs

variable {s : AppState} {visits : List PresenceVisit} {userId : String}

def clockOf (visits : List PresenceVisit) : List Nat := visits.flatMap fun visit => visit.tr.map (·.1.now)

/--
The requests that are done in an interval of a minute and take some session of the account into a call.
-/
def joinsIn (userId : String) (start : Nat) (visits : List PresenceVisit) : Nat :=
  visits.countP fun visit => visit.turnsOn userId && visit.endsIn start

theorem joinsIn_cons (start : Nat) (visit : PresenceVisit)
    : joinsIn userId start (visit :: visits)
        = joinsIn userId start visits + if visit.turnsOn userId && visit.endsIn start then 1 else 0 :=
  List.countP_cons

theorem joinsIn_cons_of_not_turnsOn {start : Nat} {visit : PresenceVisit} (h : visit.turnsOn userId = false)
    : joinsIn userId start (visit :: visits) = joinsIn userId start visits := by
  rw [joinsIn_cons, h]
  rfl

theorem le_of_endsIn {start : Nat} {visit : PresenceVisit} (h : visit.endsIn start)
    (hclock : (visit.tr.map (·.1.now)).Pairwise (· ≤ ·)) {x : Env × Label} (hx : x ∈ visit.tr)
    : x.1.now ≤ start + 60000 := by
  obtain ⟨last, hlast, hends⟩ := (Option.any_eq_true _ _).1 h
  obtain ⟨init, htr⟩ := List.getLast?_eq_some_iff.1 hlast
  rw [htr] at hx hclock
  have hlate : last.1.now ≤ start + 60000 := by
    simp only [Bool.and_eq_true, decide_eq_true_eq] at hends
    exact hends.2
  rcases List.mem_append.1 hx with hx | hx
  . rw [List.map_append] at hclock
    exact Nat.le_trans ((List.pairwise_append.1 hclock).2.2 _ (List.mem_map_of_mem hx) _ (by simp)) hlate
  . rwa [List.mem_singleton.1 hx]

theorem clock_cons {visit : PresenceVisit} {now : Nat} (hclock : (clockOf (visit :: visits)).Pairwise (· ≤ ·))
    (hnow : ∀ t ∈ clockOf (visit :: visits), now ≤ t)
    : (visit.tr.map (·.1.now)).Pairwise (· ≤ ·) ∧ (∀ x ∈ visit.tr, now ≤ x.1.now)
        ∧ (clockOf visits).Pairwise (· ≤ ·) ∧ (∀ t ∈ clockOf visits, now ≤ t)
        ∧ ∀ x ∈ visit.tr, ∀ t ∈ clockOf visits, x.1.now ≤ t := by
  rw [clockOf, List.flatMap_cons] at hclock hnow
  obtain ⟨hfirst, hrest, hnext⟩ := List.pairwise_append.1 hclock
  refine ⟨hfirst, fun x hx => ?_, hrest, fun t ht => hnow t (List.mem_append_right _ ht), fun x hx t ht => ?_⟩
  . exact hnow _ (List.mem_append_left _ (List.mem_map_of_mem hx))
  . exact hnext _ (List.mem_map_of_mem hx) t ht

theorem joinsIn_le_allowed {now start : Nat} {window : Option FixedWindow}
    (h : Prog.History PresenceRequest.handle s visits) (huser : userId ≠ "")
    (hops : ∀ visit ∈ visits, visit.req.isCallOp ∧ PresenceVisit.joinsByVoice visit userId)
    (hclock : (clockOf visits).Pairwise (· ≤ ·)) (hnow : ∀ t ∈ clockOf visits, now ≤ t) (hstart : start ≤ now)
    (htracks : Tracks joinRule (joinKey userId) now s.rateLimits window)
    : ∃ times : List Nat, times.Pairwise (· ≤ ·) ∧ (∀ t ∈ times, now ≤ t)
        ∧ joinsIn userId start visits
          ≤ FixedWindow.allowed joinRule start (FixedWindow.run joinRule window times) := by
  induction h generalizing now window with
  | nil => exact ⟨[], .nil, by simp, Nat.zero_le _⟩
  | @cons s s' req tr visits run rest ih =>
    obtain ⟨hfirst, hnow₁, hrest, hnow₂, hlater⟩ := clock_cons hclock hnow
    obtain ⟨hop, hjoins⟩ := hops _ List.mem_cons_self
    have hops' : ∀ visit ∈ visits, visit.req.isCallOp ∧ PresenceVisit.joinsByVoice visit userId :=
      fun visit hvisit => hops visit (List.mem_cons_of_mem _ hvisit)
    rcases countsJoins_of_trace run hop huser hjoins hfirst hnow₁ htracks with
      ⟨hturns, now', hnow', htracks'⟩ | ⟨x, hx, hallowed, htracks'⟩
    . rw [joinsIn_cons_of_not_turnsOn hturns]
      rcases hnow' with rfl | ⟨x, hx, rfl⟩
      . exact ih hops' hrest hnow₂ hstart htracks'
      . obtain ⟨times, hsorted, hle, hcount⟩ :=
          ih hops' hrest (hlater x hx) (Nat.le_trans hstart (hnow₁ x hx)) htracks'
        exact ⟨times, hsorted, fun t ht => Nat.le_trans (hnow₁ x hx) (hle t ht), hcount⟩
    . obtain ⟨times, hsorted, hle, hcount⟩ :=
        ih hops' hrest (hlater x hx) (Nat.le_trans hstart (hnow₁ x hx)) htracks'
      refine ⟨x.1.now :: times, List.pairwise_cons.2 ⟨hle, hsorted⟩, fun t ht => ?_, ?_⟩
      . rcases List.mem_cons.1 ht with rfl | ht
        . exact hnow₁ x hx
        . exact Nat.le_trans (hnow₁ x hx) (hle t ht)
      . rw [FixedWindow.run]
        by_cases hjoin : PresenceVisit.turnsOn { before := s, req, tr, after := s' } userId
            && PresenceVisit.endsIn { before := s, req, tr, after := s' } start
        . rw [joinsIn_cons, if_pos hjoin, FixedWindow.allowed, List.countP_cons_of_pos]
          . exact Nat.add_le_add_right hcount 1
          . rw [Bool.and_eq_true] at hjoin
            simp only [Bool.and_eq_true, decide_eq_true_eq, Bool.not_eq_true', decide_eq_false_iff_not]
            exact ⟨⟨Nat.le_trans hstart (hnow₁ x hx), le_of_endsIn hjoin.2 hfirst hx⟩,
              Nat.not_lt.2 (hallowed hjoin.1)⟩
        . rw [joinsIn_cons, if_neg hjoin]
          exact Nat.le_trans hcount (FixedWindow.allowed_le_cons ..)

theorem joinsIn_le {now start : Nat} {window : Option FixedWindow}
    (h : Prog.History PresenceRequest.handle s visits) (huser : userId ≠ "")
    (hops : ∀ visit ∈ visits, visit.req.isCallOp ∧ PresenceVisit.joinsByVoice visit userId)
    (hclock : (clockOf visits).Pairwise (· ≤ ·)) (hnow : ∀ t ∈ clockOf visits, now ≤ t)
    (htracks : Tracks joinRule (joinKey userId) now s.rateLimits window)
    : joinsIn userId start visits ≤ 2 * voiceJoinsPerMinute := by
  induction h generalizing now window with
  | nil => exact Nat.zero_le _
  | @cons s s' req tr visits run rest ih =>
    obtain ⟨hfirst, hnow₁, hrest, hnow₂, hlater⟩ := clock_cons hclock hnow
    obtain ⟨hop, hjoins⟩ := hops _ List.mem_cons_self
    have hops' : ∀ visit ∈ visits, visit.req.isCallOp ∧ PresenceVisit.joinsByVoice visit userId :=
      fun visit hvisit => hops visit (List.mem_cons_of_mem _ hvisit)
    have hcounts := countsJoins_of_trace run hop huser hjoins hfirst hnow₁ htracks
    by_cases hreach : ∃ x ∈ tr, start ≤ x.1.now
    . obtain ⟨y, hy, hstart⟩ := hreach
      have hlate : ∀ t ∈ clockOf visits, start ≤ t := fun t ht => Nat.le_trans hstart (hlater y hy t ht)
      rcases hcounts with ⟨hturns, now', hnow', htracks'⟩ | ⟨x, hx, -, htracks'⟩
      . rw [joinsIn_cons_of_not_turnsOn hturns]
        have hnow'' : ∀ t ∈ clockOf visits, max now' start ≤ t := by
          intro t ht
          refine Nat.max_le.2 ⟨?_, hlate t ht⟩
          rcases hnow' with rfl | ⟨x, hx, rfl⟩
          . exact hnow₂ t ht
          . exact hlater x hx t ht
        obtain ⟨times, hsorted, -, hcount⟩ := joinsIn_le_allowed rest huser hops' hrest hnow''
          (Nat.le_max_right ..) (htracks'.later (Nat.le_max_left ..))
        exact Nat.le_trans hcount (FixedWindow.allowed_run_le limit_joinRule_lt window hsorted)
      . -- The request may have been counted before the interval, but its window knows of it.
        obtain ⟨times, hsorted, hle, hcount⟩ := joinsIn_le_allowed rest huser hops' hrest
          (fun t ht => Nat.max_le.2 ⟨hlater x hx t ht, hlate t ht⟩)
          (Nat.le_max_right x.1.now start) (htracks'.later (Nat.le_max_left ..))
        have hbound : FixedWindow.allowed joinRule start _ ≤ _ := FixedWindow.allowed_run_le_of_mem
          limit_joinRule_lt (FixedWindow.hit joinRule x.1.now window) hsorted
          fun t ht => Nat.le_trans (Nat.le_max_right ..) (hle t ht)
        have hcounted := FixedWindow.one_le_count_hit (Nat.zero_lt_of_lt limit_joinRule_lt) x.1.now window
        have hlimit : joinRule.limit = voiceJoinsPerMinute := rfl
        have hpositive : 0 < voiceJoinsPerMinute := by decide
        rw [joinsIn_cons]
        split <;> omega
    . -- The request is done before the interval begins.
      have hearly : PresenceVisit.endsIn { before := s, req, tr, after := s' } start = false := by
        rw [← Bool.not_eq_true]
        intro hends
        obtain ⟨last, hlast, hin⟩ := (Option.any_eq_true _ _).1 hends
        simp only [Bool.and_eq_true, decide_eq_true_eq] at hin
        exact hreach ⟨last, List.mem_of_getLast? hlast, hin.1⟩
      rw [joinsIn_cons, hearly, Bool.and_false, if_neg Bool.false_ne_true, Nat.add_zero]
      rcases hcounts with ⟨-, now', rfl | ⟨x, hx, rfl⟩, htracks'⟩ | ⟨x, hx, -, htracks'⟩
      . exact ih hops' hrest hnow₂ htracks'
      . exact ih hops' hrest (hlater x hx) htracks'
      . exact ih hops' hrest (hlater x hx) htracks'

/--
In no minute does an account join more than twice the calls that its limit allows, as long as every call is joined
by op 98.
-/
theorem callJoins_le (hstart : ∀ bucket, s.rateLimits.lookup (joinKey userId) = some bucket → bucket.windowMs = 60000)
    (huser : userId ≠ "")
    (h : Prog.History PresenceRequest.handle s visits) (hops : ∀ visit ∈ visits, visit.req.isCallOp)
    (hclock : (clockOf visits).Pairwise (· ≤ ·))
    (hjoins : ∀ visit ∈ visits, PresenceVisit.joinsByVoice visit userId) (start : Nat)
    : joinsIn userId start visits ≤ 2 * voiceJoinsPerMinute := by
  let window := (s.rateLimits.lookup (joinKey userId)).map (·.window)
  have htracks : Tracks joinRule (joinKey userId) 0 s.rateLimits window :=
    { shared := fun bucket hbucket => ⟨congrArg (·.map (·.window)) hbucket, hstart bucket hbucket⟩
      evicted := fun old hnone hold => by simp [window, hnone] at hold }
  exact joinsIn_le h huser (fun visit hvisit => ⟨hops visit hvisit, hjoins visit hvisit⟩) hclock
    (fun _ _ => Nat.zero_le _) htracks

def onePhone : AppState :=
  { twoUsers with players := AList.insert "phone" { id := "phone", userId := "1", username := "anna" } ∅ }

def voiceRequest (isVoiceChat : Bool) : Json := .obj [("isVoiceChat", .bool isVoiceChat)]

def joinedBefore : AppState :=
  { onePhone with rateLimits := AList.insert (joinKey "1") { windowStartMs := 4, windowMs := 60000, count := 1 } ∅ }

theorem callJoins_le_onePhone
    : let visits := Prog.playVisits PresenceRequest.handle
        [(.voice "phone" (voiceRequest true), { now := 5 }), (.voice "phone" (voiceRequest false), { now := 6 }),
          (.voice "phone" (voiceRequest true), { now := 7 })] joinedBefore
      joinsIn "1" 0 visits = 2 ∧ joinsIn "1" 0 visits ≤ 12 := by
  have hstart (bucket : RateLimitBucket) (hbucket : joinedBefore.rateLimits.lookup (joinKey "1") = some bucket)
      : bucket.windowMs = 60000 := by
    obtain rfl := Option.some.inj ((AList.lookup_insert _).symm.trans hbucket)
    rfl
  exact ⟨by decide,
    callJoins_le hstart (by decide) (Prog.history_playVisits ..) (by decide) (by decide) (by decide) 0⟩

/--
Whoever identifies again and again enters a call each time, and none of it is counted.
-/
theorem not_callJoins_le
    : ¬∀ (s : AppState) (visits : List PresenceVisit) (userId : String), s.rateLimits = ∅ → userId ≠ "" →
        Prog.History PresenceRequest.handle s visits → (∀ visit ∈ visits, visit.req.isCallOp) →
        (clockOf visits).Pairwise (· ≤ ·) → ∀ start, joinsIn userId start visits ≤ 12 := by
  intro h
  let identify (isVoiceChat : Bool) : PresenceRequest × Env :=
    (.identify "phone" (.obj [("token", .str "a"), ("isVoiceChat", .bool isVoiceChat)]), Env.calm)
  have hbound := h onePhone (Prog.playVisits PresenceRequest.handle
    (List.replicate 13 [identify true, identify false]).flatten onePhone) "1" rfl (by decide)
    (Prog.history_playVisits ..) (by decide +kernel) (by decide +kernel) 0
  exact absurd hbound (by decide +kernel)

end Runs

end Lqxp
