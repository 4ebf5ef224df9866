import Lqxp.Core.Security.Disguises
import Lqxp.Prog.Nested
import Lqxp.Websocket.Protocol.Lemmas.Handlers

/-!
This module contains that what is said in a room stays there: whatever comes over a connection, the server tells other
sessions about a room only if they have been in it, and reads the buffered messages of a room only to such sessions.
-/

namespace Lqxp

section Node

/--
Whether a step finds out who a session belongs to.
-/
def NodeLabel.Identifies (k : String) : NodeLabel → Prop
  | .profile (.account (.handled _ _ label)) | .poll (.server label) => ∃ userId, label = .bound k userId
  | .profile (.account (.revalidated k' ..)) => k' = k
  | _ => False

/--
What a step on behalf of a session keeps to.
-/
structure NodeConduct (sid : String) (h : List NodeState) (s : NodeState) (l : NodeLabel) (s' : NodeState) : Prop where
  heard : ∀ m ∈ l.queued, MayHear sid ((h ++ [s]).map NodeState.app) m
  credentials (k : String) (player' : PlayerSession) : s'.app.players.lookup k = some player' →
    ∃ player, s.app.players.lookup k = some player ∧ (l.Identifies k ∨ player.credentials = player'.credentials)

abbrev NodeConducts (sid : String) (Q : α → List NodeState → Prop) (p : Node α) (h : List NodeState) : Prop :=
  Prog.Abides (fun s => s.app.Tidy) (fun h _ s l s' => NodeConduct sid h s l s') Q p h

abbrev NodeConducts.Any (sid : String) (p : Node α) (h : List NodeState) : Prop :=
  NodeConducts sid (fun _ _ => True) p h

namespace NodeConducts

variable {sid : String} {h : List NodeState} {Q : α → List NodeState → Prop} {R : β → List NodeState → Prop}

theorem followed {p : Node α} {f : α → Node β} (hp : NodeConducts sid Q p h) (hf : ∀ a h', NodeConducts sid R (f a) h')
    : NodeConducts sid R (p >>= f) h :=
  hp.bind fun a h' _ _ => hf a h'

theorem any {p : Node α} (hp : NodeConducts sid Q p h) : Any sid p h := hp.mono fun _ _ _ _ => trivial

theorem onSocket {Q : α → List AppState → Prop} {p : Proto α} (hp : Conducts sid Q p (h.map NodeState.app))
    : NodeConducts sid (fun a h' => Q a (h'.map NodeState.app)) (Lqxp.onSocket sid p) h := by
  let asAccount (h : List AccountState) (_ : AccountEnv) (s : AccountState) (l : AccountLabel) (s' : AccountState) : Prop :=
    ∃ sender label, l = .handled (some sid) sender label
      ∧ Conduct sid (h.map AccountState.app) s.app label s'.app
  let asProfile (h : List ProfileState) (_ : AccountEnv) (s : ProfileState) (l : ProfileLabel) (s' : ProfileState) : Prop :=
    ∃ sender label, l = .account (.handled (some sid) sender label)
      ∧ Conduct sid (h.map fun s => s.account.app) s.account.app label s'.account.app
  have hp' : Conducts sid Q p (((h.map NodeState.profile).map ProfileState.account).map AccountState.app) := by
    rw [List.map_map, List.map_map]
    exact hp
  have haccount : Prog.Abides (fun s : AccountState => s.app.Tidy) asAccount (fun a h' => Q a (h'.map AccountState.app))
      (handled (some sid) p) ((h.map NodeState.profile).map ProfileState.account) :=
    Prog.Abides.zoom (handledView (some sid)) (fun _ hs => hs) (fun _ _ _ ht => ht)
      (fun h e s l t _ hok => ⟨_, l, rfl, hok⟩) hp'
  have hprofile : Prog.Abides (fun s : ProfileState => s.account.app.Tidy) asProfile
      (fun a h' => Q a ((h'.map ProfileState.account).map AccountState.app)) (onSession (some sid) p)
      (h.map NodeState.profile) := by
    refine Prog.Abides.zoom accountView (fun _ hs => hs) (fun _ _ _ ht => ht) ?_ haccount
    rintro h e s l t - ⟨sender, label, rfl, hok⟩
    rw [List.map_map] at hok
    exact ⟨sender, label, rfl, hok⟩
  have hnode : NodeConducts sid
      (fun a h' => Q a (((h'.map NodeState.profile).map ProfileState.account).map AccountState.app))
      (Lqxp.onSocket sid p) h := by
    refine Prog.Abides.zoom profileView (fun _ hs => hs) (fun _ _ _ ht => ht) ?_ hprofile
    rintro h e s l t - ⟨sender, label, rfl, hok⟩
    rw [List.map_map] at hok
    refine ⟨fun m hm => ?_, hok.credentials⟩
    rw [List.map_append]
    exact hok.heard m hm
  refine hnode.mono fun a h' _ ha => ?_
  rw [List.map_map, List.map_map] at ha
  exact ha

theorem gently {f : AccountEnv → NodeState → α × NodeLabel × NodeState}
    (hf : ∀ e s, (f e s).2.1.queued = [] ∧ Gentle s.app (f e s).2.2.app) : Any sid (Prog.atom f) h := by
  refine Prog.Abides.atom fun e s hs => ?_
  obtain ⟨hqueued, hgentle⟩ := hf e s
  refine ⟨⟨fun m hm => absurd hm (by simp [hqueued]), fun k player' hk => ?_⟩, hgentle.tidy hs, trivial⟩
  obtain ⟨player, hplayer, hsame⟩ := hgentle.credentials k player' hk
  exact ⟨player, hplayer, .inr hsame⟩

theorem sendJson {payload : Json} (hpayload : isHistory payload = false) : Any sid (sendJson sid payload) h := by
  refine Prog.Abides.atom fun e s hs => ⟨⟨fun m hm => ?_, fun k player hk => ⟨player, hk, .inr rfl⟩⟩, hs, trivial⟩
  obtain rfl := List.mem_singleton.1 hm
  exact .of_sender rfl hpayload

section Fallible

theorem run_bind {p : NodeApi α} {f : α → NodeApi β} (hp : Any sid p.run h) (hf : ∀ a h', Any sid (f a).run h')
    : Any sid (p >>= f).run h := by
  refine hp.followed fun r h' => ?_
  cases r with
  | ok a => exact hf a h'
  | error err => exact .pure trivial

theorem run_lift {p : Node α} (hp : Any sid p h) : Any sid (ExceptT.lift p : NodeApi α).run h :=
  hp.followed fun _ _ => .pure trivial

theorem onTables (query : Tabled α) : Any sid (onTables query).run h :=
  gently fun e s => by
    cases query { s.tables with faults := [e.dbFails] } with
    | ok a tables => exact ⟨rfl, .refl _⟩
    | error err tables => exact ⟨rfl, .refl _⟩

end Fallible

section Profiles

/--
A piece that may use the cache, as a part of the whole.
-/
abbrev Profiled (sid : String) (p : Profiles α) (h : List NodeState) : Prop := Any sid (onProfiles p) h

abbrev Accounted (sid : String) (p : Accounts α) (h : List NodeState) : Prop := Profiled sid (onAccounts p) h

theorem Profiled.bind {p : Profiles α} {f : α → Profiles β} (hp : Profiled sid p h)
    (hf : ∀ a h', Profiled sid (f a) h') : Profiled sid (p >>= f) h := by
  rw [Profiled, onProfiles, Prog.zoom_bind]
  exact hp.followed hf

theorem Profiled.run_bind {p : ProfileApi α} {f : α → ProfileApi β} (hp : Profiled sid p.run h)
    (hf : ∀ a h', Profiled sid (f a).run h') : Profiled sid (p >>= f).run h := by
  refine Profiled.bind hp fun r h' => ?_
  cases r with
  | ok a => exact hf a h'
  | error err => exact Prog.Abides.pure trivial

theorem Profiled.run_lift {p : Profiles α} (hp : Profiled sid p h) : Profiled sid (ExceptT.lift p : ProfileApi α).run h :=
  Profiled.bind hp fun _ _ => Prog.Abides.pure trivial

theorem Profiled.cache {f : AccountEnv → ProfileState → α × ProfileLabel × ProfileState}
    (hf : ∀ e s, (f e s).2.1 = .quiet ∧ (f e s).2.2.account = s.account) : Profiled sid (Prog.atom f) h := by
  rw [Profiled, onProfiles, Prog.zoom_atom]
  refine gently fun e s => ?_
  obtain ⟨hlabel, haccount⟩ := hf e s.profile
  dsimp only [profileView]
  rw [hlabel]
  exact ⟨rfl, by simp only [NodeState.app, haccount]; exact .refl _⟩

theorem Accounted.bind {p : Accounts α} {f : α → Accounts β} (hp : Accounted sid p h)
    (hf : ∀ a h', Accounted sid (f a) h') : Accounted sid (p >>= f) h := by
  rw [Accounted, onAccounts, Prog.zoom_bind]
  exact Profiled.bind hp hf

theorem Accounted.run_bind {p : Api α} {f : α → Api β} (hp : Accounted sid p.run h)
    (hf : ∀ a h', Accounted sid (f a).run h') : Accounted sid (p >>= f).run h := by
  refine Accounted.bind hp fun r h' => ?_
  cases r with
  | ok a => exact hf a h'
  | error err => exact Prog.Abides.pure trivial

theorem Accounted.perform {f : AccountEnv → AccountState → α × AccountLabel}
    (hf : ∀ e s, s.app.Tidy →
      NodeConduct sid h s (.profile (.account (f e s.profile.account).2))
          { s with profile := { s.profile with account := (f e s.profile.account).2.apply s.profile.account } }
        ∧ ((f e s.profile.account).2.apply s.profile.account).app.Tidy)
    : Accounted sid (perform f) h := by
  rw [Accounted, Profiled, onProfiles, onAccounts, Lqxp.perform, Prog.zoom_atom, Prog.zoom_atom]
  exact Prog.Abides.atom fun e s hs => ⟨(hf e s hs).1, (hf e s hs).2, trivial⟩

theorem Accounted.quiet {f : AccountEnv → AccountState → α × AccountLabel}
    (hf : ∀ e s, (f e s).2 = .quiet ∨ ∃ userId passwordHash, (f e s).2 = .found userId passwordHash)
    : Accounted sid (Lqxp.perform f) h := by
  refine .perform fun e s hs => ?_
  rcases hf e s.profile.account with hlabel | ⟨userId, passwordHash, hlabel⟩
  . rw [hlabel]
    exact ⟨⟨fun m hm => absurd hm List.not_mem_nil, fun k player hk => ⟨player, hk, .inr rfl⟩⟩, hs⟩
  . rw [hlabel]
    exact ⟨⟨fun m hm => absurd hm List.not_mem_nil, fun k player hk => ⟨player, hk, .inr rfl⟩⟩, hs⟩

theorem Accounted.findUserById (userId : String) : Accounted sid (findUserById userId).run h := by
  refine .quiet fun e s => ?_
  split
  . exact .inl rfl
  . exact .inl rfl

theorem Accounted.findUserByUsername (x : Externals) (username : String)
    : Accounted sid (findUserByUsername x username).run h := by
  refine .quiet fun e s => ?_
  split
  . exact .inl rfl
  dsimp only
  split
  . exact .inr ⟨_, _, rfl⟩
  . exact .inl rfl

theorem Accounted.revalidateSession : Accounted sid (revalidateSession sid) h := by
  refine .bind (.quiet fun _ _ => .inl rfl) fun now h => .bind (.quiet fun _ _ => .inl rfl) fun player h => ?_
  cases player with
  | none => exact Prog.Abides.pure trivial
  | some player =>
    dsimp only
    split
    . exact Prog.Abides.pure trivial
    split
    . exact Prog.Abides.pure trivial
    split
    . exact Prog.Abides.pure trivial
    refine .bind (.findUserById _) fun account h => ?_
    split
    . exact Prog.Abides.pure trivial
    . exact Prog.Abides.pure trivial
    split
    . exact Prog.Abides.pure trivial
    refine .bind ?_ fun _ h => Prog.Abides.pure trivial
    refine .perform fun e s hs => ⟨⟨fun m hm => absurd hm List.not_mem_nil, fun k player' hk => ?_⟩, ?_⟩
    . replace hk := (AssocMap.lookup_modify ..).symm.trans hk
      split at hk
      next hsid =>
        subst hsid
        obtain ⟨player, hplayer, -⟩ := Option.map_eq_some_iff.1 hk
        exact ⟨player, hplayer, .inl rfl⟩
      next => exact ⟨player', hk, .inr rfl⟩
    . exact ⟨hs.ids.modify fun _ _ hid => hid, hs.rooms⟩

end Profiles

section Operations

variable {n : Deployment}

theorem Profiled.socket {p : Proto α} (hp : Conducts.Any sid p (h.map NodeState.app))
    : Profiled sid (onSession (some sid) p) h := (onSocket hp).any

theorem respondError (op : Nat) (text : String) (reqId : Option String)
    : Any sid (Lqxp.onSocket sid (Lqxp.respondError sid op text reqId)) h := (onSocket (.respondError op text reqId)).any

theorem lookupPublicProfile (x : Externals) (lookup : ProfileLookup) (now : Nat)
    : Profiled sid (lookupPublicProfile x lookup now).run h := by
  refine Profiled.run_bind ?_ fun user h => ?_
  . have hname (h : List NodeState)
        : Accounted sid (AccountDatabase.publicUserByUsernameField x lookup.username).run h := by
      unfold AccountDatabase.publicUserByUsernameField
      split
      . exact Accounted.run_bind (.findUserByUsername x _) fun _ _ => Prog.Abides.pure trivial
      . exact Prog.Abides.pure trivial
    have hid : Accounted sid (AccountDatabase.publicUserByIdField lookup.userId).run h := by
      unfold AccountDatabase.publicUserByIdField
      split
      . exact Accounted.run_bind (.findUserById _) fun _ _ => Prog.Abides.pure trivial
      . exact Prog.Abides.pure trivial
    refine Accounted.run_bind hid fun user h => ?_
    cases user with
    | some user => exact Prog.Abides.pure trivial
    | none => exact hname h
  . cases user with
    | some user =>
      exact Profiled.run_bind (Profiled.run_lift (.cache fun _ _ => ⟨rfl, rfl⟩)) fun _ _ => Prog.Abides.pure trivial
    | none => exact Prog.Abides.pure trivial

theorem findPublicProfiles (x : Externals) (now : Nat) (lookups : List ProfileLookup) (found : FoundProfiles)
    : Profiled sid (findPublicProfiles x now lookups found).run h := by
  induction lookups generalizing found h with
  | nil => exact Prog.Abides.pure trivial
  | cons lookup lookups ih =>
    refine Profiled.run_bind (Profiled.run_lift (.cache fun _ _ => ⟨rfl, rfl⟩)) fun cached h => ?_
    cases cached with
    | some cached => exact ih _
    | none =>
      refine Profiled.run_bind (lookupPublicProfile x lookup now) fun value h => ?_
      cases value with
      | some value => exact ih _
      | none => exact ih _

theorem requestPublicProfiles (x : Externals) (d : Json) : Profiled sid (requestPublicProfiles x sid d) h := by
  have herror (text : String) (reqId : Option String) (h : List NodeState)
      : Profiled sid (onSession (some sid) (Lqxp.respondError sid 35 text reqId)) h :=
    .socket (.respondError 35 text reqId)
  refine .bind (.socket Conducts.getPlayer.any) fun player h => ?_
  split
  . exact herror _ _ _
  refine .bind (.socket (.hitRateLimit _ _ _)) fun limited h => ?_
  split
  . exact herror _ _ _
  split
  . exact herror _ _ _
  refine .bind (.socket .nowMs) fun now h => .bind (findPublicProfiles x now _ _) fun answer h => ?_
  split
  . exact herror _ _ _
  . exact .socket (.respondOk _ _ (by decide))

section Polls

theorem onServer {Q : α → List AppState → Prop} {p : Proto α} (hp : Conducts sid Q p (h.map NodeState.app))
    : NodeConducts sid (fun a h' => Q a (h'.map NodeState.app)) (onPolls (onServer p)) h := by
  let asPoll (h : List PollState) (_ : Env) (s : PollState) (l : PollLabel) (s' : PollState) : Prop :=
    ∃ label, l = .server label ∧ Conduct sid (h.map PollState.app) s.app label s'.app
  have hp' : Conducts sid Q p ((h.map pollView.get).map PollState.app) := by
    rw [List.map_map]
    exact hp
  have hpoll : Prog.Abides (fun s : PollState => s.app.Tidy) asPoll (fun a h' => Q a (h'.map PollState.app))
      (Lqxp.onServer p) (h.map pollView.get) :=
    Prog.Abides.zoom serverView (fun _ hs => hs) (fun _ _ _ ht => ht) (fun h e s l t _ hok => ⟨l, rfl, hok⟩) hp'
  have hnode : NodeConducts sid (fun a h' => Q a ((h'.map pollView.get).map PollState.app)) (onPolls (Lqxp.onServer p)) h := by
    refine Prog.Abides.zoom pollView (fun _ hs => hs) (fun _ _ _ ht => ht) ?_ hpoll
    rintro h e s l t - ⟨label, rfl, hok⟩
    rw [List.map_map] at hok
    refine ⟨fun m hm => ?_, hok.credentials⟩
    rw [List.map_append]
    exact hok.heard m hm
  refine hnode.mono fun a h' _ ha => ?_
  rw [List.map_map] at ha
  exact ha

theorem Polled.bind {p : Polls α} {f : α → Polls β} (hp : NodeConducts sid Q (onPolls p) h)
    (hf : ∀ a h', h <+: h' → Q a h' → NodeConducts sid R (onPolls (f a)) h') : NodeConducts sid R (onPolls (p >>= f)) h := by
  rw [onPolls, Prog.zoom_bind]
  exact hp.bind hf

theorem castVote (digest : List UInt8 → String) (salt : List UInt8) (messageId userId : String) (sent : List Json)
    : Any sid (onPolls (castVote digest salt messageId userId sent)) h := by
  rw [onPolls, Lqxp.castVote, Prog.zoom_atom]
  refine gently fun e s => ?_
  dsimp only [pollView]
  split
  . exact ⟨rfl, .refl _⟩
  . exact ⟨rfl, .refl _⟩

theorem sendPollState (digest : List UInt8 → String) (salt : List UInt8) {roomId : String} (messageId : String)
    (tally : PollTally) {recipients : List (String × String)} {h : List AppState}
    (hrecipients : ∀ x ∈ recipients, Known h (·.Holds x.1 roomId))
    : Conducts.Any sid (sendPollState digest salt roomId messageId tally recipients) h := by
  induction recipients generalizing h with
  | nil => exact .pure trivial
  | cons x recipients ih =>
    obtain ⟨hfirst, hrest⟩ := List.forall_mem_cons.1 hrecipients
    refine Prog.Abides.bind (Q := fun _ _ => True) (Conducts.telling (f := fun _ _ => ((), [x.1], _)) ?_) ?_
    . intro e s hs k hk
      obtain rfl := List.mem_singleton.1 hk
      exact .of_room rfl rfl (hfirst.mono (List.prefix_append _ _))
    . exact fun _ h' hbegins _ => ih fun y hy => (hrest y hy).mono hbegins

theorem votePoll (digest : List UInt8 → String) (salt : List UInt8) (d : Json)
    : Any sid (onPolls (votePoll digest salt sid d)) h := by
  have herror (text : String) (reqId : Option String) (h : List NodeState)
      : Any sid (onPolls (Lqxp.onServer (Lqxp.respondError sid 53 text reqId))) h :=
    (onServer (.respondError 53 text reqId)).any
  refine Polled.bind (onServer (Conducts.hitRateLimit _ _ _)) fun limited h _ _ => ?_
  split
  . exact herror _ _ _
  split
  . dsimp only
    split
    . exact herror _ _ _
    refine Polled.bind (onServer Conducts.getPlayer).any fun player h _ _ => ?_
    split
    . refine Polled.bind (onServer (Conducts.look _)).any fun room h _ _ => ?_
      split
      next roomId _ =>
        refine Polled.bind (castVote digest salt _ _ _) fun tally h _ _ => ?_
        split
        . refine Polled.bind (onServer (Conducts.look _)) fun recipients h _ hrecipients => ?_
          obtain ⟨e, s, hs, htidy, rfl⟩ := hrecipients
          refine Polled.bind (onServer (sendPollState digest salt _ _ ?_)) fun _ h _ _ => ?_
          . intro x hx
            obtain ⟨player, hplayer, rfl⟩ := List.mem_map.1 hx
            obtain ⟨hvalue, hroom⟩ := List.mem_filter.1 hplayer
            exact ⟨s, hs, player, htidy.id_of_mem hvalue, by simpa using hroom⟩
          . exact (onServer (.respondOk _ _ (by decide))).any
        . exact herror _ _ _
      next => exact herror _ _ _
    . exact herror _ _ _
  . exact herror _ _ _

end Polls

section Prekeys

theorem onApi {p : Api α} (hp : ∀ h, Accounted sid p.run h) (h : List NodeState)
    : Any sid (onProfiles (onApi p).run) h := hp h

theorem answerOp {op : Nat} (failure : String) (reqId : Option String) (answer : ApiResult (List (String × Json)))
    (hop : op ≠ 18) : Any sid (Phantom.answerOp sid op failure reqId answer) h := by
  cases answer with
  | ok d => exact (onSocket (.respond d reqId hop)).followed fun _ _ => .pure trivial
  | error err => exact respondError _ _ _

theorem outcomeOf {p : Node Bool} (hp : Any sid p h) : Any sid (Lqxp.outcomeOf p) h := by
  refine hp.followed fun closed _ => ?_
  split
  . exact .pure trivial
  . exact .pure trivial

theorem settleOp {op : Nat} (failure : String) (reqId : Option String) (answer : ApiResult (List (String × Json)))
    (hop : op ≠ 18) : Any sid (Phantom.settleOp sid op failure reqId answer) h := by
  unfold Phantom.settleOp
  split
  . exact .pure trivial
  . exact outcomeOf (answerOp _ _ _ hop)

theorem sessionUserId : Any sid (Lqxp.onSocket sid (Phantom.sessionUserId sid)) h := by
  have hsession (h : List AppState) : Conducts.Any sid (Phantom.sessionUserId sid) h :=
    Conducts.getPlayer.followed fun _ _ => Prog.Abides.pure trivial
  exact onSocket (hsession _)

theorem publishPrekeyOp (v : DeviceSignatures) (d : Json) : Any sid (Phantom.publishPrekeyOp v sid d) h := by
  refine sessionUserId.followed fun userId h => ?_
  split
  . split
    . exact (onTables _).followed fun _ _ => settleOp _ _ _ (by decide)
    . exact outcomeOf (respondError _ _ _)
  . exact outcomeOf (respondError _ _ _)

theorem getPrekeyByUsername (x : Externals) (username : String)
    : Any sid (Phantom.getPrekeyByUsername x username).run h := by
  refine run_bind (onApi (fun _ => .findUserByUsername x username) h) fun account h => ?_
  split
  . exact onTables _
  . exact .pure trivial

theorem fetchPrekeys (x : Externals) (usernames : List String) (bundles : Json)
    : Any sid (Phantom.fetchPrekeys x usernames bundles).run h := by
  induction usernames generalizing bundles h with
  | nil => exact .pure trivial
  | cons username usernames ih =>
    refine run_bind (getPrekeyByUsername x username) fun bundle h => ?_
    split
    . exact ih _
    . exact ih _

theorem fetchPrekeyOp (x : Externals) (d : Json) : Any sid (Phantom.fetchPrekeyOp x sid d) h := by
  refine sessionUserId.followed fun userId h => ?_
  split
  . dsimp only
    split
    . exact respondError _ _ _
    refine (onSocket (.hitRateLimit _ _ _)).followed fun limited h => ?_
    split
    . exact respondError _ _ _
    . exact (fetchPrekeys x _ _).followed fun _ _ => answerOp _ _ _ (by decide)
  . exact respondError _ _ _

theorem addTag (userId tag : String) : Any sid (Phantom.addTag userId tag).run h := by
  refine run_bind (onTables _) fun count h => ?_
  split
  . exact .pure trivial
  . exact onTables _

theorem addHints (c : Crypto) (userId ownerFp : String) (hints : List String)
    : Any sid (Phantom.addHints c userId ownerFp hints).run h := by
  induction hints generalizing h with
  | nil => exact .pure trivial
  | cons hint hints ih =>
    unfold Phantom.addHints
    split
    . exact .pure trivial
    . exact run_bind (addTag _ _) fun _ _ => ih

theorem removeHints (c : Crypto) (userId ownerFp : String) (hints : List String)
    : Any sid (Phantom.removeHints c userId ownerFp hints).run h := by
  induction hints generalizing h with
  | nil => exact .pure trivial
  | cons hint hints ih =>
    unfold Phantom.removeHints
    split
    . exact .pure trivial
    . exact run_bind (onTables _) fun _ _ => ih

theorem blockUpdateOp (c : Crypto) (d : Json) : Any sid (Phantom.blockUpdateOp c sid d) h := by
  refine sessionUserId.followed fun userId h => ?_
  split
  . dsimp only
    split
    . exact outcomeOf (respondError _ _ _)
    refine followed (Q := fun _ _ => True) ?_ fun _ _ => settleOp _ _ _ (by decide)
    refine run_bind (onTables _) fun ownerFp h => run_bind (addHints c _ _ _) fun _ h => ?_
    exact run_bind (removeHints c _ _ _) fun _ h => onTables _
  . exact outcomeOf (respondError _ _ _)

end Prekeys

theorem directAnswer (payload : SocketPayload) : Any sid (directAnswer n sid payload) h := by
  unfold Lqxp.directAnswer
  split
  . exact (sendJson rfl).followed fun _ _ => .pure trivial
  . refine (sendJson ?_).followed fun _ _ => .pure trivial
    rw [isHistory_withRequestId]
    rfl
  . refine (sendJson ?_).followed fun _ _ => .pure trivial
    rw [isHistory_withRequestId]
    rfl
  . exact (sendJson rfl).followed fun _ _ => .pure trivial

theorem runOp (payload : SocketPayload) : Any sid (runOp n sid payload) h := by
  unfold Lqxp.runOp
  split
  . exact outcomeOf (requestPublicProfiles n.externals payload.d)
  . exact publishPrekeyOp n.signatures payload.d
  . exact outcomeOf (fetchPrekeyOp n.externals payload.d)
  . exact blockUpdateOp n.crypto payload.d
  . exact outcomeOf (votePoll n.pollDigest n.pollSalt payload.d)
  split
  next handler hhandler => exact outcomeOf (onSocket (.protoHandler hhandler payload.d)).any
  next => exact outcomeOf (directAnswer payload)

theorem passesGate (op : Nat) : Any sid (passesGate sid op) h := by
  unfold Lqxp.passesGate
  split
  . exact .pure trivial
  . exact Accounted.revalidateSession

theorem processMessage (payload : Option SocketPayload) : Any sid (processMessage n sid payload) h := by
  cases payload with
  | none => exact .pure trivial
  | some payload =>
    refine (passesGate payload.op).followed fun passed h => ?_
    split
    . exact runOp payload
    . exact (sendJson rfl).followed fun _ _ => .pure trivial

end Operations

end NodeConducts

section Example

def laxDeployment : Deployment where
  externals := asciiExternals
  crypto := .simple
  signatures := { verifyEcdsaP256 := fun _ _ _ => .ok (), verifyMldsa65 := fun _ _ _ => .ok () }
  pollDigest _ := "hash"
  pollSalt := []

end Example

end Node

end Lqxp
