import Lqxp.Presence.Consistency
import Lqxp.Presence.Directory

/-!
This module contains the proof that a session that listens knows the devices of its account, as long as no device
gives up a client id without a word, and none brings one along.
-/

namespace Lqxp

variable {me userId : String}

theorem heard_eq (me : String) (view : Set String) {tr : List (Env × Label)} {ms ms' : List (String × Json)}
    (h : queued tr = ms ++ ms') : heard me view tr = ms'.foldl (hear me) (ms.foldl (hear me) view) := by
  rw [heard, h, List.foldl_append]

theorem foldl_hear_join {s : AppState} {sid : String} {old now : PlayerSession} {view : Set String}
    (hroutable : Routable s.players) (hlistens : Listens me userId s) (hne : sid ≠ me)
    (hnow : s.players.lookup sid = some now)
    : (if now.clientId ≠ "" && old.clientId ≠ now.clientId then
          s.syncMessages now.userId "join" now.clientId now.platform (some sid)
        else []).foldl (hear me) view
      = if now.userId = userId ∧ now.clientId ≠ "" ∧ old.clientId ≠ now.clientId then insert now.clientId view
        else view := by
  by_cases hnew : now.clientId ≠ "" ∧ old.clientId ≠ now.clientId
  . have hexclude : some sid ≠ some me := fun heq => hne (Option.some.inj heq)
    rw [if_pos (by simpa using hnew), foldl_hear_sync hroutable hlistens hexclude (hroutable.trim_ne hnow hnew.1),
      if_pos rfl]
    simp only [hnew.1, hnew.2, ne_eq, not_false_eq_true, and_true]
  . rw [if_neg (by simpa using hnew), if_neg fun h => hnew h.2]
    rfl

theorem foldl_hear_announcements {s : AppState} {sid : String} {old now : PlayerSession} {view : Set String}
    (hroutable : Routable s.players) (hlistens : Listens me userId s) (hne : sid ≠ me)
    (hnow : s.players.lookup sid = some now)
    : (s.announcements sid old now).foldl (hear me) view
      = if now.userId = userId ∧ now.clientId ≠ "" ∧ old.clientId ≠ now.clientId then insert now.clientId view
        else view := by
  by_cases hjoin : now.clientId ≠ "" ∧ now.clientId ≠ old.clientId
  . have hnew : now.clientId ≠ "" ∧ old.clientId ≠ now.clientId := ⟨hjoin.1, hjoin.2.symm⟩
    rw [AppState.announcements, if_pos (by simpa using hjoin), ← foldl_hear_join hroutable hlistens hne hnow,
      if_pos (by simpa using hnew)]
  . have hold : ¬(now.userId = userId ∧ now.clientId ≠ "" ∧ old.clientId ≠ now.clientId) :=
      fun h => hjoin ⟨h.2.1, h.2.2.symm⟩
    rw [if_neg hold, AppState.announcements, if_neg (by simpa using hjoin)]
    split
    next hupdate =>
      have hclient : now.clientId ≠ "" := by
        simp only [Bool.and_eq_true, decide_eq_true_eq] at hupdate
        exact hupdate.1
      have hexclude : some sid ≠ some me := fun heq => hne (Option.some.inj heq)
      rw [foldl_hear_sync hroutable hlistens hexclude (hroutable.trim_ne hnow hclient)]
      exact ite_self _
    next => rfl

theorem heard_iff_identify {s s' : AppState} {tr : List (Env × Label)} {sid : String} {d : Json} {b : Bool}
    (run : Prog.Trace (identifyPlayer sid d) s tr b s') (hne : sid ≠ me) (hroutable : Routable s'.players)
    (hlistens : Listens me userId s)
    : heard me (s.listed me) tr = s'.listed me
        ↔ ∀ player user e, s.players.lookup sid = some player → s.identifiedUser d = some user →
          (e, .bound sid user.id) ∈ tr →
          MayMove (s.clientIds userId [me, sid]) userId (player.userId, player.clientId)
            (user.id, sanitizeClientId (d.getStr? "clientId")) := by
  cases trace_identifyPlayer run with
  | refused hplayers hqueued =>
    have hdeaf : heard me (s.listed me) tr = s.listed me :=
      foldl_hear_of_ne fun m hm hme => hne ((hqueued m hm).symm.trans hme)
    rw [hdeaf, listed_of_players hlistens hplayers]
    refine iff_of_true rfl fun player user e hplayer huser hbound => ?_
    -- A run that has bound the session and changed nothing has found it as it has left it.
    obtain ⟨user', now, huser', hmodify⟩ := players_of_bound run hbound
    obtain rfl := Option.some.inj (huser.symm.trans huser')
    have hsame : s.players.lookup sid = some (s.identified d user now player) := by
      rw [← hplayers, hmodify, AssocMap.lookup_modify_self, hplayer, Option.map_some]
    have hfixed := Option.some.inj (hplayer.symm.trans hsame)
    have huserId : player.userId = user.id := by
      rw [hfixed]
      rfl
    have hclientId : player.clientId = sanitizeClientId (d.getStr? "clientId") := by
      rw [hfixed]
      rfl
    rw [huserId, hclientId]
    exact MayMove.refl _ _ _
  | bound user player e replies huser hplayer hlabel hplayers hreplies hqueued =>
    have hothers (k : String) (hk : k ≠ sid) : s'.players.lookup k = s.players.lookup k := by
      rw [hplayers, AssocMap.lookup_modify_ne hk]
    have hplayer' : s'.players.lookup sid = some (s.identified d user e.now player) := by
      rw [hplayers, AssocMap.lookup_modify_self, hplayer, Option.map_some]
    have hdeaf : replies.foldl (hear me) (s.listed me) = s.listed me :=
      foldl_hear_of_ne fun m hm hme => hne ((hreplies m hm).symm.trans hme)
    have hmove := listed_move_iff hlistens hne hplayer hplayers
    have hview : heard me (s.listed me) tr
        = if (s.identified d user e.now player).userId = userId ∧ (s.identified d user e.now player).clientId ≠ ""
            ∧ player.clientId ≠ (s.identified d user e.now player).clientId then
          insert (s.identified d user e.now player).clientId (s.listed me)
        else s.listed me := by
      rw [heard_eq me _ hqueued, hdeaf]
      exact foldl_hear_join hroutable (hlistens.of_lookup (hothers me hne.symm)) hne hplayer'
    rw [hview, hmove]
    refine ⟨fun hmay player₁ user₁ e₁ hplayer₁ huser₁ _ => ?_, fun hall => hall player user e hplayer huser hlabel⟩
    obtain rfl := Option.some.inj (hplayer.symm.trans hplayer₁)
    obtain rfl := Option.some.inj (huser.symm.trans huser₁)
    exact hmay

theorem heard_iff_settings {s s' : AppState} {tr : List (Env × Label)} {sid : String} {d : Json} {b : Bool}
    (run : Prog.Trace (updateClientSettings sid d) s tr b s') (hne : sid ≠ me) (hroutable : Routable s'.players)
    (hlistens : Listens me userId s)
    : heard me (s.listed me) tr = s'.listed me
        ↔ ∀ player, s.players.lookup sid = some player → Confirmed 8 sid tr →
          MayMove (s.clientIds userId [me, sid]) userId (player.userId, player.clientId)
            (player.userId,
              ((d.getStr? "clientId").map fun id => sanitizeClientId (some id)).getD player.clientId) := by
  cases trace_changesSettings run with
  | refused hplayers hrefused hqueued =>
    have hdeaf : heard me (s.listed me) tr = s.listed me := foldl_hear_of_none hqueued
    rw [hdeaf, listed_of_players hlistens hplayers]
    exact iff_of_true rfl fun _ _ hconfirmed => absurd hconfirmed hrefused
  | changed player profile notices hconfirmed hplayer hplayers hnotices hqueued =>
    have hothers (k : String) (hk : k ≠ sid) : s'.players.lookup k = s.players.lookup k := by
      rw [hplayers, AssocMap.lookup_modify_ne hk]
    have hplayer' : s'.players.lookup sid
        = some (player.applySettings d profile (MovesPlayers.requestedStatus d)) := by
      rw [hplayers, AssocMap.lookup_modify_self, hplayer, Option.map_some]
    rw [heard_eq me _ hqueued, foldl_hear_of_none hnotices,
      foldl_hear_announcements hroutable (hlistens.of_lookup (hothers me hne.symm)) hne hplayer',
      listed_move_iff hlistens hne hplayer hplayers, applySettings_userId, applySettings_clientId]
    refine ⟨fun hmay player₁ hplayer₁ _ => ?_, fun hall => hall player hplayer hconfirmed⟩
    obtain rfl := Option.some.inj (hplayer.symm.trans hplayer₁)
    exact hmay

theorem heard_iff_disconnect {s s' : AppState} {tr : List (Env × Label)} {sid : String}
    (run : Prog.Trace (disconnectPlayer sid) s tr () s') (hne : sid ≠ me) (hroutable : Routable s.players)
    (hroutable' : Routable s'.players) (hlistens : Listens me userId s)
    : heard me (s.listed me) tr = s'.listed me
        ↔ ∀ player, s.players.lookup sid = some player → player.userId = userId → player.clientId ≠ "" →
          player.clientId ∉ s.clientIds userId [me, sid] := by
  cases trace_disconnectPlayer run with
  | absent hplayer hplayers hqueued =>
    have hdeaf : heard me (s.listed me) tr = s.listed me := by rw [heard, hqueued, List.foldl_nil]
    rw [hdeaf, listed_of_players hlistens hplayers]
    refine iff_of_true rfl fun player hplayer' => ?_
    rw [hplayer] at hplayer'
    contradiction
  | gone player notices hplayer hplayers hnotices hqueued =>
    have hlistens' : Listens me userId s' := by
      refine hlistens.of_lookup ?_
      rw [hplayers, AssocMap.lookup_erase, if_neg hne.symm]
    have hview : heard me (s.listed me) tr
        = if player.userId = userId ∧ player.clientId ≠ "" then s.listed me \ {player.clientId}
          else s.listed me := by
      rw [heard_eq me _ hqueued, foldl_hear_of_none hnotices]
      by_cases hrouted : player.userId ≠ "" ∧ player.clientId ≠ ""
      . rw [if_pos (by simpa using hrouted),
          foldl_hear_sync hroutable' hlistens' (by simp) (hroutable.trim_ne hplayer hrouted.2)]
        simp only [hrouted.2, ne_eq, not_false_eq_true, and_true, if_pos, String.reduceEq, if_false]
      . rw [if_neg (by simpa using hrouted), List.foldl_nil, if_neg]
        rintro ⟨rfl, hclient⟩
        refine hrouted ⟨?_, hclient⟩
        obtain ⟨-, -, -, huser, -⟩ := hlistens
        rintro hempty
        exact huser (by rw [hempty]; rfl)
    rw [hview, listed_erase_iff hlistens hne hplayer hplayers]
    refine ⟨fun hmay player₁ hplayer₁ => ?_, fun hall => hall player hplayer⟩
    obtain rfl := Option.some.inj (hplayer.symm.trans hplayer₁)
    exact hmay

theorem heard_iff_trackable {v : Prog.Visit PresenceRequest Env AppState Label}
    (run : Prog.Trace v.req.handle v.before v.tr () v.after) (hpeer : v.req.OfPeer me)
    (hroutable : Routable v.before.players) (hlistens : Listens me userId v.before)
    : heard me (v.before.listed me) v.tr = v.after.listed me ↔ Trackable me userId v := by
  have hroutable' := routable_step run hroutable
  obtain ⟨s, req, tr, s'⟩ := v
  cases req with
  | identify sid d =>
    obtain ⟨b, run⟩ := PresenceRequest.trace_answer run
    exact heard_iff_identify run hpeer hroutable' hlistens
  | settings sid d =>
    obtain ⟨b, run⟩ := PresenceRequest.trace_answer run
    exact heard_iff_settings run hpeer hroutable' hlistens
  | disconnect sid => exact heard_iff_disconnect run hpeer hroutable hroutable' hlistens
  | connect | join | leave | voice | media | deafened | callAccess | kick | ban | deleteRoom => exact hpeer.elim

theorem listens_of_ofPeer {s s' : AppState} {req : PresenceRequest} {tr : List (Env × Label)}
    (run : Prog.Trace req.handle s tr () s') (hpeer : req.OfPeer me) (hlistens : Listens me userId s)
    : Listens me userId s' := by
  refine hlistens.of_lookup ?_
  rcases PresenceRequest.changes_of_trace run with hsame | hchange
  . rw [hsame]
  cases req with
  | identify sid d =>
    obtain ⟨user, e, -, -, hplayers⟩ := hchange
    rw [hplayers, AssocMap.lookup_modify_ne (Ne.symm hpeer)]
  | settings sid d =>
    obtain ⟨profile, hplayers⟩ := hchange
    rw [hplayers, AssocMap.lookup_modify_ne (Ne.symm hpeer)]
  | disconnect sid =>
    rw [hchange, AssocMap.lookup_erase, if_neg (Ne.symm hpeer)]
  | connect | join | leave | voice | media | deafened | callAccess | kick | ban | deleteRoom => exact hpeer.elim

/--
From any state of a server that starts without sessions, a session that asks for its peers and then listens knows
them after each of the requests of other sessions exactly if each of these can be tracked.
-/
theorem mirrors_iff {start s : AppState} {log : List (PresenceRequest × List (Env × Label))}
    {visits : List (Prog.Visit PresenceRequest Env AppState Label)} (hstart : start.players = ∅)
    (hserved : Prog.Served PresenceRequest.handle (fun _ _ _ => True) start log s) (hlistens : Listens me userId s)
    (h : Prog.History PresenceRequest.handle s visits) (hpeers : ∀ v ∈ visits, v.req.OfPeer me)
    : Mirrors me (s.listed me) visits ↔ ∀ v ∈ visits, Trackable me userId v := by
  have hroutable : Routable s.players :=
    hserved.invariant (fun s => Routable s.players) (fun _ _ _ _ run _ => routable_step run) (hstart ▸ .empty)
  clear hserved hstart
  induction h with
  | nil s => exact iff_of_true trivial fun _ hv => absurd hv List.not_mem_nil
  | @cons s s' req tr visits run rest ih =>
    obtain ⟨hpeer, hpeers⟩ := List.forall_mem_cons.1 hpeers
    rw [Mirrors, List.forall_mem_cons]
    have hstep := heard_iff_trackable (v := ⟨s, req, tr, s'⟩) run hpeer hroutable hlistens
    have hrest := ih (listens_of_ofPeer run hpeer hlistens) hpeers (routable_step run hroutable)
    constructor
    . rintro ⟨hview, hmirrors⟩
      rw [hview] at hmirrors
      exact ⟨hstep.1 hview, hrest.1 hmirrors⟩
    . rintro ⟨htrackable, hall⟩
      have hview := hstep.2 htrackable
      refine ⟨hview, ?_⟩
      rw [hview]
      exact hrest.2 hall

section Devices

def deviceRequest (token clientId : String) : Json := .obj [("token", .str token), ("clientId", .str clientId)]

/--
A tablet of an account, and a phone that is about to identify.
-/
def phoneConnects : List (PresenceRequest × Env) :=
  [(.connect "tablet", {}), (.identify "tablet" (deviceRequest "a" "tab"), {}), (.connect "phone", {})]

def phoneIdentifies : List (PresenceRequest × Env) := [(.identify "phone" (deviceRequest "a" "cell"), {})]

/--
The state after requests that nothing interleaves with.
-/
def playedFrom (s : AppState) (script : List (PresenceRequest × Env)) : AppState :=
  script.foldl (fun s x => (Prog.play x.2 x.1.handle s).2.2) s

theorem served_playedFrom (s : AppState) (script : List (PresenceRequest × Env))
    : ∃ log, Prog.Served PresenceRequest.handle (fun _ _ _ => True) s log (playedFrom s script) := by
  induction script generalizing s with
  | nil => exact ⟨[], .nil s⟩
  | cons x script ih =>
    obtain ⟨log, hserved⟩ := ih (Prog.play x.2 x.1.handle s).2.2
    have hfirst : Prog.Served PresenceRequest.handle (fun _ _ _ => True) s
        [(x.1, (Prog.play x.2 x.1.handle s).1)] (Prog.play x.2 x.1.handle s).2.2 :=
      .snoc (.nil s) trivial (Prog.trace_play x.2 x.1.handle s)
    exact ⟨_, hfirst.append hserved⟩

/--
The tablet hears of the phone when it identifies and when it disconnects.
-/
theorem mirrors_iff_phone
    : ∃ log s, Prog.Served PresenceRequest.handle (fun _ _ _ => True) twoUsers log s
        ∧ Mirrors "tablet" (s.listed "tablet") (Prog.playVisits PresenceRequest.handle
          (phoneIdentifies ++ [(.disconnect "phone", Env.calm)]) s) := by
  obtain ⟨log, hserved⟩ := served_playedFrom twoUsers phoneConnects
  have hlistens : Listens "tablet" "1" (playedFrom twoUsers phoneConnects) :=
    ⟨_, rfl, rfl, by decide, by decide⟩
  have hstart : twoUsers.players = ∅ := rfl
  have hhistory : Prog.History PresenceRequest.handle (playedFrom twoUsers phoneConnects)
      (Prog.playVisits PresenceRequest.handle (phoneIdentifies ++ [(.disconnect "phone", Env.calm)])
        (playedFrom twoUsers phoneConnects)) := Prog.history_playVisits _ _
  refine ⟨log, playedFrom twoUsers phoneConnects, hserved, ?_⟩
  refine (mirrors_iff hstart hserved hlistens hhistory ?_).2 ?_
  . refine List.forall_mem_cons.2 ⟨?_, List.forall_mem_singleton.2 ?_⟩
    . show "phone" ≠ "tablet"
      decide
    . show "phone" ≠ "tablet"
      decide
  . refine List.forall_mem_cons.2 ⟨?_, List.forall_mem_singleton.2 ?_⟩
    . rintro player user e hplayer - -
      have hfresh : (playedFrom twoUsers phoneConnects).players.lookup "phone" = some { id := "phone" } := rfl
      obtain rfl := Option.some.inj (hfresh.symm.trans hplayer)
      exact ⟨fun _ hclient => absurd rfl hclient, fun _ _ hclient heq => absurd heq hclient⟩
    . rintro player - - - ⟨-, k, other, hother, hk, -⟩
      have hkeys : ∀ x ∈ (playedFrom twoUsers (phoneConnects ++ phoneIdentifies)).players.entries,
          x.1 ∈ ["tablet", "phone"] := by decide
      exact hk (hkeys _ (AList.mem_lookup_iff.1 hother))

def phoneIdentified : AppState := playedFrom twoUsers (phoneConnects ++ phoneIdentifies)

def phoneRenamed : Prog.Visit PresenceRequest Env AppState Label :=
  let req := PresenceRequest.settings "phone" (.obj [("clientId", .str "new")])
  let (tr, _, after) := Prog.play .calm req.handle phoneIdentified
  { before := phoneIdentified, req, tr, after }

/--
Nobody hears that the old client id of the phone is gone.
-/
theorem not_mirrors
    : ¬∀ me userId start s log visits, start.players = ∅ →
        Prog.Served PresenceRequest.handle (fun _ _ _ => True) start log s → Listens me userId s →
        Prog.History PresenceRequest.handle s visits → (∀ v ∈ visits, v.req.OfPeer me) →
        Mirrors me (s.listed me) visits := by
  intro hall
  obtain ⟨log, hserved⟩ := served_playedFrom twoUsers (phoneConnects ++ phoneIdentifies)
  have hlistens : Listens "tablet" "1" phoneIdentified := ⟨_, rfl, rfl, by decide, by decide⟩
  have hlistens' : Listens "tablet" "1" phoneRenamed.after := ⟨_, rfl, rfl, by decide, by decide⟩
  have hpeers : ∀ v ∈ [phoneRenamed], v.req.OfPeer "tablet" :=
    List.forall_mem_singleton.2 (show "phone" ≠ "tablet" by decide)
  have hhistory : Prog.History PresenceRequest.handle phoneIdentified [phoneRenamed] :=
    .cons (Prog.trace_play Env.calm (PresenceRequest.handle phoneRenamed.req) phoneIdentified) (.nil _)
  obtain ⟨hview, -⟩ := hall "tablet" "1" twoUsers phoneIdentified log _ rfl hserved hlistens hhistory hpeers
  have hknown : "cell" ∈ phoneIdentified.listed "tablet" := by
    rw [listed_eq hlistens]
    exact ⟨by decide, "phone", _, rfl, by decide, rfl, rfl⟩
  have hqueued : ∃ reply, queued phoneRenamed.tr = [("phone", reply), ("tablet", message 63
      [("event", .str "join"), ("clientId", .str "new"), ("platform", .str "web")])] := ⟨_, rfl⟩
  have hheard : "cell" ∈ heard "tablet" (phoneIdentified.listed "tablet") phoneRenamed.tr := by
    obtain ⟨reply, hqueued⟩ := hqueued
    rw [heard, hqueued]
    simp [hear, noteEvent, peerEvent_sync, hknown]
  rw [hview, listed_eq hlistens'] at hheard
  obtain ⟨-, k, other, hother, -, -, hclient⟩ := hheard
  have hclients : ∀ player ∈ phoneRenamed.after.players.values, player.clientId ≠ "cell" := by decide
  exact hclients other (AssocMap.mem_values_of_lookup hother) hclient

end Devices

end Lqxp
