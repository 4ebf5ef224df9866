import Mathlib.Data.Set.Insert
import Lqxp.Data.Fields
import Lqxp.Presence.System
import Lqxp.Websocket.Protocol.Lemmas.PeerEvents
import Lqxp.Websocket.Protocol.Safety.Relay

/-!
This module contains the two views of the devices of an account: the list that a session can ask for, and what it
makes of the messages by which it hears of devices that come and go; and what a move of one device makes of both.
-/

namespace Lqxp

def AppState.listed (s : AppState) (me : String) : Set String :=
  {clientId | ∃ own peers platform, (Prog.play .calm (syncPeers me) s).2.1 = .ok (own, peers)
    ∧ (clientId, platform) ∈ peers}

/--
A device that joins is added, and one that leaves is dropped.
-/
def noteEvent (payload : Json) (view : Set String) : Set String :=
  match peerEvent payload with
  | some (event, clientId) =>
    if event = "join" then insert clientId view else if event = "leave" then view \ {clientId} else view
  | none => view

def hear (me : String) (view : Set String) (m : String × Json) : Set String :=
  if m.1 = me then noteEvent m.2 view else view

/--
What a session makes of all that is queued for it while a request is served.
-/
def heard (me : String) (view : Set String) (tr : List (Env × Label)) : Set String :=
  (queued tr).foldl (hear me) view

/--
After each of the requests a session holds the client ids that op 62 would list for it.
-/
def Mirrors (me : String) : Set String → List (Prog.Visit PresenceRequest Env AppState Label) → Prop
  | _, [] => True
  | view, v :: visits => heard me view v.tr = v.after.listed me ∧ Mirrors me (heard me view v.tr) visits

/--
A request by which another session comes, changes or goes.
-/
def PresenceRequest.OfPeer (me : String) : PresenceRequest → Prop
  | .identify sid _ | .settings sid _ | .disconnect sid => sid ≠ me
  | _ => False

/--
A session that op 62 answers.
-/
def Listens (me userId : String) (s : AppState) : Prop :=
  ∃ player, s.players.lookup me = some player ∧ player.userId = userId ∧ Text.trim userId ≠ ""
    ∧ player.username ≠ ""

/--
The client ids of the sessions of an account, some of them left out.
-/
def AppState.clientIds (s : AppState) (userId : String) (except : List String) : Set String :=
  {clientId | clientId ≠ "" ∧ ∃ k player, s.players.lookup k = some player ∧ k ∉ except
    ∧ player.userId = userId ∧ player.clientId = clientId}

/--
A session may go from one account and client id to others when the listener hears of that or has no need to: a
client id of the account that is given up is also that of another session, and so is one that is brought along
from another account.
-/
def MayMove (others : Set String) (userId : String) (old new : String × String) : Prop :=
  (old.1 = userId → old.2 ≠ "" → old ≠ new → old.2 ∈ others)
    ∧ (old.1 ≠ userId → new.1 = userId → new.2 ≠ "" → new.2 = old.2 → new.2 ∈ others)

/--
A request that is refused does no harm. Otherwise the session may make its move, and the client id of one that
disconnects is nobody else's.
-/
def Trackable (me userId : String) (v : Prog.Visit PresenceRequest Env AppState Label) : Prop :=
  match v.req with
  | .identify sid d => ∀ player user e, v.before.players.lookup sid = some player →
    v.before.identifiedUser d = some user → (e, .bound sid user.id) ∈ v.tr →
    MayMove (v.before.clientIds userId [me, sid]) userId (player.userId, player.clientId)
      (user.id, sanitizeClientId (d.getStr? "clientId"))
  | .settings sid d => ∀ player, v.before.players.lookup sid = some player → Confirmed 8 sid v.tr →
    MayMove (v.before.clientIds userId [me, sid]) userId (player.userId, player.clientId)
      (player.userId, ((d.getStr? "clientId").map fun id => sanitizeClientId (some id)).getD player.clientId)
  | .disconnect sid => ∀ player, v.before.players.lookup sid = some player → player.userId = userId →
    player.clientId ≠ "" → player.clientId ∉ v.before.clientIds userId [me, sid]
  | _ => True

section Hearing

theorem noteEvent_of_none {payload : Json} (h : peerEvent payload = none) (view : Set String)
    : noteEvent payload view = view := by
  rw [noteEvent, h]

theorem noteEvent_noteEvent (payload : Json) (view : Set String)
    : noteEvent payload (noteEvent payload view) = noteEvent payload view := by
  unfold noteEvent
  cases peerEvent payload with
  | none => rfl
  | some event =>
    dsimp only
    split
    . exact Set.insert_eq_of_mem (Set.mem_insert _ _)
    . split
      . exact sdiff_idem
      . rfl

variable {me : String} {ms : List (String × Json)} {view : Set String}

theorem foldl_hear_of_none (h : ∀ m ∈ ms, peerEvent m.2 = none) : ms.foldl (hear me) view = view := by
  induction ms with
  | nil => rfl
  | cons m ms ih =>
    obtain ⟨hm, hms⟩ := List.forall_mem_cons.1 h
    rw [List.foldl_cons, hear, noteEvent_of_none hm, ite_self]
    exact ih hms

theorem foldl_hear_of_ne (h : ∀ m ∈ ms, m.1 ≠ me) : ms.foldl (hear me) view = view := by
  induction ms with
  | nil => rfl
  | cons m ms ih =>
    obtain ⟨hm, hms⟩ := List.forall_mem_cons.1 h
    rw [List.foldl_cons, hear, if_neg hm]
    exact ih hms

theorem foldl_hear_map (recipients : List String) (payload : Json)
    : (recipients.map fun k => (k, payload)).foldl (hear me) view
        = if me ∈ recipients then noteEvent payload view else view := by
  induction recipients generalizing view with
  | nil => rfl
  | cons k recipients ih =>
    rw [List.map_cons, List.foldl_cons, ih, hear]
    by_cases hk : k = me
    . subst hk
      rw [if_pos rfl, noteEvent_noteEvent, ite_self, if_pos List.mem_cons_self]
    . have hme : me ∈ k :: recipients ↔ me ∈ recipients := by
        rw [List.mem_cons, or_iff_right (Ne.symm hk)]
      simp only [if_neg hk, hme]

end Hearing

/--
Sessions are stored under their ids, and no client id is blank unless it is empty.
-/
abbrev Routable (m : AssocMap String PlayerSession) : Prop :=
  m.All fun k player => player.id = k ∧ (Text.trim player.clientId = "" → player.clientId = "")

section Routable

variable {m m' : AssocMap String PlayerSession} {sid : String}

theorem trim_sanitizeClientId (value : Option String)
    : Text.trim (sanitizeClientId value) = sanitizeClientId value := by
  have hkept : ∀ c ∈ (sanitizeClientId value).toList, Text.isWhitespace c = false := by
    intro c hc
    rw [sanitizeClientId, String.toList_ofList] at hc
    exact Text.not_isWhitespace_of_isNameChar (List.mem_filter.1 (List.mem_of_mem_take hc)).2
  exact Text.trim_eq_self (Text.trimmed_of_forall hkept)

theorem Routable.trim_ne {player : PlayerSession} (h : Routable m) (hplayer : m.lookup sid = some player)
    (hclient : player.clientId ≠ "") : Text.trim player.clientId ≠ "" :=
  fun htrim => hclient ((h sid player hplayer).2 htrim)

theorem Routable.modify (h : Routable m) {f : PlayerSession → PlayerSession}
    (hf : ∀ player, (f player).id = player.id ∧ (f player).clientId = player.clientId)
    : Routable (m.modify sid f) := by
  refine AssocMap.All.modify h fun player _ hplayer => ?_
  rw [(hf player).1, (hf player).2]
  exact hplayer

theorem Routable.mapValues (h : Routable m) {f : String → PlayerSession → PlayerSession}
    (hf : ∀ k player, (f k player).id = player.id ∧ (f k player).clientId = player.clientId)
    : Routable (m.mapValues f) := by
  refine AssocMap.All.mapValues h fun k player _ hplayer => ?_
  rw [(hf k player).1, (hf k player).2]
  exact hplayer

theorem Routable.joins (h : Routable m) (hjoin : Joins sid m m') : Routable m' := by
  have henter (roomId : String) : Routable (m.modify sid (·.enter roomId)) := by
    refine h.modify fun player => ?_
    unfold PlayerSession.enter
    split <;> exact ⟨rfl, rfl⟩
  obtain ⟨player, roomId, -, -, rfl | rfl⟩ := hjoin
  . exact henter roomId
  . exact (henter roomId).modify fun _ => ⟨rfl, rfl⟩

theorem Routable.setCall (h : Routable m) (isVoiceChat camera screen : Bool) (callRoom : Option String)
    : Routable (m.modify sid (.setCall isVoiceChat camera screen callRoom)) := by
  refine h.modify fun player => ?_
  unfold PlayerSession.setCall
  split <;> exact ⟨rfl, rfl⟩

theorem Routable.setsVoice (h : Routable m) {isVoiceChat : Bool} {callRoom : Option String}
    (hset : MovesPlayers.SetsVoice sid isVoiceChat callRoom m m') : Routable m' := by
  obtain ⟨player, m₁, camera, screen, -, hm₁, hset⟩ := hset
  have hrest : Routable m₁ := by
    rw [hm₁]
    split
    . refine h.mapValues fun k player => ?_
      split <;> exact ⟨rfl, rfl⟩
    . exact h
  rcases hset with rfl | ⟨-, -, rfl⟩
  . exact hrest
  . exact hrest.setCall _ _ _ _

theorem applySettings_clientId (player : PlayerSession) (d : Json) (profile : Option UserProfile)
    (status : Option UserPresenceStatus)
    : (player.applySettings d profile status).clientId
        = ((d.getStr? "clientId").map fun id => sanitizeClientId (some id)).getD player.clientId := by
  unfold PlayerSession.applySettings
  split <;> rfl

theorem routable_applySettings {player : PlayerSession} (h : Text.trim player.clientId = "" → player.clientId = "")
    (d : Json) (profile : Option UserProfile) (status : Option UserPresenceStatus)
    : Text.trim (player.applySettings d profile status).clientId = "" →
        (player.applySettings d profile status).clientId = "" := by
  rw [applySettings_clientId]
  cases d.getStr? "clientId" with
  | none => exact h
  | some id =>
    intro htrim
    rw [← htrim]
    exact (trim_sanitizeClientId (some id)).symm

theorem routable_step {req : PresenceRequest} {s s' : AppState} {tr : List (Env × Label)}
    (h : Prog.Trace req.handle s tr () s') (hs : Routable s.players) : Routable s'.players := by
  rcases PresenceRequest.changes_of_trace h with hsame | hchange
  . rwa [hsame]
  generalize s'.players = m' at hchange
  cases req with
  | connect sid =>
    obtain rfl := hchange
    exact AssocMap.All.insert hs ⟨rfl, fun _ => rfl⟩
  | disconnect sid =>
    obtain rfl := hchange
    exact AssocMap.All.erase hs
  | identify sid d =>
    obtain ⟨user, e, -, -, rfl⟩ := hchange
    refine AssocMap.All.modify hs fun player _ hplayer => ⟨hplayer.1, fun htrim => ?_⟩
    exact (trim_sanitizeClientId (d.getStr? "clientId")).symm.trans htrim
  | join sid d => exact Routable.joins hs hchange
  | leave sid d =>
    obtain ⟨roomId, e, -, rfl⟩ := hchange
    exact Routable.modify hs fun _ => ⟨rfl, rfl⟩
  | settings sid d =>
    obtain ⟨profile, rfl⟩ := hchange
    refine AssocMap.All.modify hs fun player _ hplayer => ?_
    have hid : (player.applySettings d profile (MovesPlayers.requestedStatus d)).id = player.id := by
      unfold PlayerSession.applySettings
      split <;> rfl
    exact ⟨hid.trans hplayer.1, routable_applySettings hplayer.2 d profile (MovesPlayers.requestedStatus d)⟩
  | voice sid d => exact Routable.setsVoice hs hchange
  | media sid d =>
    obtain ⟨camera, screen, player, -, -, hset⟩ := hchange
    obtain ⟨_, -, -, -, rfl⟩ := hset
    exact Routable.setCall hs _ _ _ _
  | deafened sid d =>
    obtain ⟨player, isDeafened, -, -, rfl⟩ := hchange
    exact Routable.modify hs fun _ => ⟨rfl, rfl⟩
  | callAccess sid d => exact hchange.elim
  | kick sid d | ban sid d =>
    obtain ⟨userId, roomId, e, -, rfl⟩ := hchange
    refine Routable.mapValues hs fun _ _ => ?_
    split <;> exact ⟨rfl, rfl⟩
  | deleteRoom sid d =>
    obtain ⟨roomId, e, -, rfl⟩ := hchange
    exact Routable.mapValues hs fun _ _ => ⟨rfl, rfl⟩

end Routable

section Listing

variable {s s' : AppState} {me sid userId : String} {player : PlayerSession}

theorem listed_eq (h : Listens me userId s) : s.listed me = s.clientIds userId [me] := by
  obtain ⟨own, hown, rfl, huser, hname⟩ := h
  have hplay : (Prog.play .calm (syncPeers me) s).2.1
      = .ok (own.clientId, (((siblings s.players me own.userId).filter (·.2.clientId ≠ "")).map fun x =>
        (x.2.clientId, x.2.platform)).mergeSort fun x y => x.1 ≤ y.1) := by
    rw [syncPeers, play_look]
    simp [hown, huser, hname]
  ext clientId
  simp only [AppState.listed, hplay, Set.mem_ofPred_eq, Except.ok.injEq, Prod.mk.injEq]
  constructor
  . rintro ⟨_, _, platform, ⟨-, rfl⟩, hmem⟩
    obtain ⟨x, hx, hfields⟩ := List.mem_map.1 (List.mem_mergeSort.1 hmem)
    obtain ⟨hsibling, hclient⟩ := List.mem_filter.1 hx
    obtain ⟨hlookup, hne, hsame⟩ := mem_siblings.1 hsibling
    obtain ⟨rfl, -⟩ := Prod.mk.inj hfields
    exact ⟨by simpa using hclient, x.1, x.2, hlookup, by simpa using hne, hsame, rfl⟩
  . rintro ⟨hclient, k, other, hlookup, hne, hsame, rfl⟩
    refine ⟨_, _, other.platform, ⟨rfl, rfl⟩, List.mem_mergeSort.2 (List.mem_map.2 ⟨(k, other), ?_, rfl⟩)⟩
    refine List.mem_filter.2 ⟨mem_siblings.2 ⟨hlookup, by simpa using hne, hsame⟩, by simpa using hclient⟩

/--
The client id by which a session is known in an account.
-/
def knownAs (userId : String) (now : String × String) : Set String :=
  {clientId | now.1 = userId ∧ now.2 = clientId ∧ clientId ≠ ""}

theorem clientIds_of_lookup (hplayer : s.players.lookup sid = some player) (hne : sid ≠ me)
    : s.clientIds userId [me] = s.clientIds userId [me, sid] ∪ knownAs userId (player.userId, player.clientId) := by
  ext clientId
  simp only [AppState.clientIds, knownAs, Set.mem_union, Set.mem_ofPred_eq, List.mem_cons, List.not_mem_nil, or_false,
    not_or]
  constructor
  . rintro ⟨hclient, k, other, hother, hk, hsame, hid⟩
    by_cases hks : k = sid
    . subst hks
      obtain rfl := Option.some.inj (hplayer.symm.trans hother)
      exact .inr ⟨hsame, hid, hclient⟩
    . exact .inl ⟨hclient, k, other, hother, ⟨hk, hks⟩, hsame, hid⟩
  . rintro (⟨hclient, k, other, hother, ⟨hk, -⟩, hsame, hid⟩ | ⟨hsame, hid, hclient⟩)
    . exact ⟨hclient, k, other, hother, hk, hsame, hid⟩
    . exact ⟨hclient, sid, player, hplayer, hne, hsame, hid⟩

theorem clientIds_of_lookup_none (hplayer : s.players.lookup sid = none)
    : s.clientIds userId [me] = s.clientIds userId [me, sid] := by
  ext clientId
  simp only [AppState.clientIds, Set.mem_ofPred_eq, List.mem_cons, List.not_mem_nil, or_false, not_or]
  constructor
  . rintro ⟨hclient, k, other, hother, hk, hfields⟩
    refine ⟨hclient, k, other, hother, ⟨hk, ?_⟩, hfields⟩
    rintro rfl
    rw [hplayer] at hother
    contradiction
  . rintro ⟨hclient, k, other, hother, ⟨hk, -⟩, hfields⟩
    exact ⟨hclient, k, other, hother, hk, hfields⟩

theorem clientIds_congr (h : ∀ k, k ≠ sid → s'.players.lookup k = s.players.lookup k)
    : s'.clientIds userId [me, sid] = s.clientIds userId [me, sid] := by
  ext clientId
  simp only [AppState.clientIds, Set.mem_ofPred_eq, List.mem_cons, List.not_mem_nil, or_false, not_or]
  refine and_congr_right fun _ => exists₂_congr fun k other => ?_
  constructor
  . rintro ⟨hother, hk, hfields⟩
    exact ⟨(h k hk.2) ▸ hother, hk, hfields⟩
  . rintro ⟨hother, hk, hfields⟩
    exact ⟨(h k hk.2).symm ▸ hother, hk, hfields⟩

end Listing

section Moves

variable {userId : String} {new : String × String}

theorem knownAs_of (h : new.1 = userId ∧ new.2 ≠ "") : knownAs userId new = {new.2} := by
  ext clientId
  simp only [knownAs, Set.mem_ofPred_eq, Set.mem_singleton_iff]
  constructor
  . rintro ⟨-, rfl, -⟩
    rfl
  . rintro rfl
    exact ⟨h.1, rfl, h.2⟩

theorem knownAs_of_not (h : ¬(new.1 = userId ∧ new.2 ≠ "")) : knownAs userId new = ∅ := by
  refine Set.eq_empty_of_forall_notMem fun clientId hmem => h ?_
  obtain ⟨huser, rfl, hclient⟩ := hmem
  exact ⟨huser, hclient⟩

/--
The listener hears of a new client id in its account that is not the one that the session had before. That is all
there is to hear exactly if the session may make its move.
-/
theorem view_move_iff (others : Set String) (userId : String) (old new : String × String)
    : (if new.1 = userId ∧ new.2 ≠ "" ∧ old.2 ≠ new.2 then insert new.2 (others ∪ knownAs userId old)
        else others ∪ knownAs userId old) = others ∪ knownAs userId new
      ↔ MayMove others userId old new := by
  have hkeep (clientId : String) : others ∪ {clientId} = others ↔ clientId ∈ others := by
    rw [Set.union_eq_left, Set.singleton_subset_iff]
  by_cases hnew : new.1 = userId ∧ new.2 ≠ ""
  . rw [knownAs_of hnew]
    by_cases hold : old.1 = userId ∧ old.2 ≠ ""
    . rw [knownAs_of hold]
      by_cases hsame : old.2 = new.2
      . have heq : old = new := Prod.ext (hold.1.trans hnew.1.symm) hsame
        rw [if_neg (fun h => h.2.2 hsame), hsame]
        exact iff_of_true rfl ⟨fun _ _ hne => absurd heq hne, fun hne => absurd hold.1 hne⟩
      . have hne : old ≠ new := fun heq => hsame (congrArg Prod.snd heq)
        rw [if_pos ⟨hnew.1, hnew.2, hsame⟩]
        constructor
        . intro hview
          refine ⟨fun _ _ _ => ?_, fun hne => absurd hold.1 hne⟩
          have hmem : old.2 ∈ others ∪ {new.2} := hview ▸ Set.mem_insert_of_mem _ (.inr rfl)
          exact hmem.resolve_right hsame
        . intro hmay
          rw [(hkeep old.2).2 (hmay.1 hold.1 hold.2 hne), Set.union_comm, Set.singleton_union]
    . rw [knownAs_of_not hold, Set.union_empty]
      have hfirst : old.1 = userId → old.2 ≠ "" → old ≠ new → old.2 ∈ others :=
        fun huser hclient => absurd ⟨huser, hclient⟩ hold
      by_cases hsame : old.2 = new.2
      . have huser : old.1 ≠ userId := fun huser => hold ⟨huser, hsame ▸ hnew.2⟩
        rw [if_neg (fun h => h.2.2 hsame), eq_comm, hkeep]
        exact ⟨fun hmem => ⟨hfirst, fun _ _ _ _ => hmem⟩, fun hmay => hmay.2 huser hnew.1 hnew.2 hsame.symm⟩
      . rw [if_pos ⟨hnew.1, hnew.2, hsame⟩, Set.union_comm, Set.singleton_union]
        exact iff_of_true rfl ⟨hfirst, fun _ _ _ heq => absurd heq.symm hsame⟩
  . rw [knownAs_of_not hnew, Set.union_empty, if_neg (fun h => hnew ⟨h.1, h.2.1⟩)]
    have hsecond : old.1 ≠ userId → new.1 = userId → new.2 ≠ "" → new.2 = old.2 → new.2 ∈ others :=
      fun _ huser hclient => absurd ⟨huser, hclient⟩ hnew
    by_cases hold : old.1 = userId ∧ old.2 ≠ ""
    . have hne : old ≠ new := fun heq => hnew (heq ▸ hold)
      rw [knownAs_of hold, hkeep]
      exact ⟨fun hmem => ⟨fun _ _ _ => hmem, hsecond⟩, fun hmay => hmay.1 hold.1 hold.2 hne⟩
    . rw [knownAs_of_not hold, Set.union_empty]
      exact iff_of_true rfl ⟨fun huser hclient => absurd ⟨huser, hclient⟩ hold, hsecond⟩

end Moves

section Steps

variable {s s' : AppState} {me sid userId : String} {view : Set String}

theorem foldl_hear_sync (hroutable : Routable s.players) (hlistens : Listens me userId s) {exclude : Option String}
    (hexclude : exclude ≠ some me) {account event clientId platform : String} (hclient : Text.trim clientId ≠ "")
    : (s.syncMessages account event clientId platform exclude).foldl (hear me) view
        = if account = userId then
            if event = "join" then insert clientId view
            else if event = "leave" then view \ {clientId} else view
          else view := by
  obtain ⟨own, hown, rfl, huser, -⟩ := hlistens
  have hid := (hroutable me own hown).1
  by_cases haccount : account = own.userId
  . subst haccount
    rw [AppState.syncMessages, if_neg (by simp [huser, hclient]), if_pos rfl]
    have hmem : me ∈ ((s.players.values.filter fun player =>
        player.userId = own.userId && some player.id ≠ exclude).map (·.id)) := by
      refine List.mem_map.2 ⟨own, List.mem_filter.2 ⟨AssocMap.mem_values_of_lookup hown, ?_⟩, hid⟩
      simpa [hid] using hexclude.symm
    rw [show ∀ (l : List PlayerSession) (payload : Json), (l.map fun player => (player.id, payload))
      = (l.map (·.id)).map fun k => (k, payload) from fun l payload => by simp]
    rw [foldl_hear_map, if_pos hmem, noteEvent, peerEvent_sync]
  . rw [if_neg haccount]
    refine foldl_hear_of_ne fun m hm hme => haccount ?_
    unfold AppState.syncMessages at hm
    split at hm
    . contradiction
    . obtain ⟨player, hplayer, rfl⟩ := List.mem_map.1 hm
      obtain ⟨hvalue, hfields⟩ := List.mem_filter.1 hplayer
      obtain ⟨k, hlookup⟩ := AssocMap.exists_lookup_of_mem_values hvalue
      obtain rfl : k = me := (hroutable k player hlookup).1.symm.trans hme
      obtain rfl := Option.some.inj (hown.symm.trans hlookup)
      simp only [Bool.and_eq_true, decide_eq_true_eq] at hfields
      exact hfields.1.symm

theorem MayMove.refl (others : Set String) (userId : String) (now : String × String)
    : MayMove others userId now now :=
  ⟨fun _ _ hne => absurd rfl hne, fun hne huser => absurd huser hne⟩

theorem Listens.of_lookup (h : Listens me userId s) (hlookup : s'.players.lookup me = s.players.lookup me)
    : Listens me userId s' := by
  rw [Listens, hlookup]
  exact h

theorem listed_of_players (hlistens : Listens me userId s) (hplayers : s'.players = s.players)
    : s'.listed me = s.listed me := by
  have hsame : s'.clientIds userId [me] = s.clientIds userId [me] := by
    rw [AppState.clientIds, AppState.clientIds, hplayers]
  rw [listed_eq hlistens, listed_eq (hlistens.of_lookup (by rw [hplayers])), hsame]

theorem listed_move_iff (hlistens : Listens me userId s) (hne : sid ≠ me) {f : PlayerSession → PlayerSession}
    {player : PlayerSession} (hplayer : s.players.lookup sid = some player)
    (hplayers : s'.players = s.players.modify sid f)
    : (if (f player).userId = userId ∧ (f player).clientId ≠ "" ∧ player.clientId ≠ (f player).clientId then
          insert (f player).clientId (s.listed me)
        else s.listed me) = s'.listed me
      ↔ MayMove (s.clientIds userId [me, sid]) userId (player.userId, player.clientId)
        ((f player).userId, (f player).clientId) := by
  have hplayer' : s'.players.lookup sid = some (f player) := by
    rw [hplayers, AssocMap.lookup_modify_self, hplayer, Option.map_some]
  have hothers (k : String) (hk : k ≠ sid) : s'.players.lookup k = s.players.lookup k := by
    rw [hplayers, AssocMap.lookup_modify_ne hk]
  rw [listed_eq (hlistens.of_lookup (hothers me hne.symm)), listed_eq hlistens, clientIds_of_lookup hplayer hne,
    clientIds_of_lookup hplayer' hne, clientIds_congr hothers]
  exact view_move_iff _ userId (player.userId, player.clientId) ((f player).userId, (f player).clientId)

theorem listed_erase_iff (hlistens : Listens me userId s) (hne : sid ≠ me) {player : PlayerSession}
    (hplayer : s.players.lookup sid = some player) (hplayers : s'.players = s.players.erase sid)
    : (if player.userId = userId ∧ player.clientId ≠ "" then s.listed me \ {player.clientId} else s.listed me)
        = s'.listed me
      ↔ (player.userId = userId → player.clientId ≠ "" → player.clientId ∉ s.clientIds userId [me, sid]) := by
  have hothers (k : String) (hk : k ≠ sid) : s'.players.lookup k = s.players.lookup k := by
    rw [hplayers, AssocMap.lookup_erase, if_neg hk]
  have hgone : s'.players.lookup sid = none := by
    rw [hplayers, AssocMap.lookup_erase, if_pos rfl]
  rw [listed_eq (hlistens.of_lookup (hothers me hne.symm)), listed_eq hlistens, clientIds_of_lookup hplayer hne,
    clientIds_of_lookup_none hgone, clientIds_congr hothers]
  by_cases hknown : player.userId = userId ∧ player.clientId ≠ ""
  . rw [if_pos hknown, knownAs_of hknown, Set.union_sdiff_right, sdiff_eq_left, Set.disjoint_singleton_right]
    exact ⟨fun hmem _ _ => hmem, fun hmem => hmem hknown.1 hknown.2⟩
  . rw [if_neg hknown, knownAs_of_not hknown, Set.union_empty]
    exact iff_of_true rfl fun huser hclient => absurd ⟨huser, hclient⟩ hknown

end Steps

end Lqxp
