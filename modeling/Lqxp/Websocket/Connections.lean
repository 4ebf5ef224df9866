import Lqxp.Accounts.Lemmas.Server
import Lqxp.Websocket.Confinement

/-!
This module contains that a session is registered only as long as its connection is served: whatever else a server
does, no session is left behind, and there are never more of them than may be.
-/

namespace Lqxp

namespace AppState

/--
The sessions and messages are in their places, and the sessions are not too many.
-/
structure Orderly (s : AppState) : Prop extends s.Tidy where
  size : s.players.size ≤ maxConcurrentSessions

def Lacks (s : AppState) (sid : String) : Prop := s.players.lookup sid = none

/--
A step that adds no session and keeps everything in its place.
-/
structure Loses (s s' : AppState) : Prop where
  lacks (sid : String) : s.Lacks sid → s'.Lacks sid
  tidy : s.Tidy → s'.Tidy

theorem Orderly.loses {s s' : AppState} (hs : s.Orderly) (h : s.Loses s') : s'.Orderly where
  toTidy := h.tidy hs.toTidy
  size := Nat.le_trans (AssocMap.size_le_size h.lacks) hs.size

end AppState

section Steps

variable {s s' : AppState}

namespace AppState.Loses

theorem refl (s : AppState) : s.Loses s := ⟨fun _ h => h, fun h => h⟩

theorem of_known {C : String → PlayerSession → PlayerSession → Prop}
    (hknown : ∀ k player', s'.players.lookup k = some player' → ∃ player, s.players.lookup k = some player ∧ C k player player')
    (htidy : s.Tidy → s'.Tidy) : s.Loses s' where
  lacks k hk := by
    by_contra hne
    obtain ⟨player', hplayer'⟩ := Option.ne_none_iff_exists'.1 hne
    obtain ⟨player, hplayer, -⟩ := hknown k player' hplayer'
    exact absurd hk (by simp [Lacks, hplayer])
  tidy := htidy

theorem of_gentle (h : Gentle s s') : s.Loses s' := .of_known h.credentials h.tidy

theorem frame (hplayers : s'.players = s.players) (hmessages : s'.roomMessages = s.roomMessages) : s.Loses s' :=
  .of_gentle (.frame hplayers hmessages)

theorem modify {k : String} {f : PlayerSession → PlayerSession} (hf : ∀ player, (f player).id = player.id)
    (hplayers : s'.players = s.players.modify k f) (hmessages : s'.roomMessages = s.roomMessages) : s.Loses s' where
  lacks k' hk' := by
    rw [Lacks, hplayers, AssocMap.lookup_modify]
    split
    . rw [hk']
      rfl
    . exact hk'
  tidy hs := by
    refine ⟨?_, by rw [hmessages]; exact hs.rooms⟩
    rw [hplayers]
    exact hs.ids.modify fun player _ hid => (hf player).trans hid

theorem mapValues {f : String → PlayerSession → PlayerSession} (hf : ∀ k player, (f k player).id = player.id)
    (hplayers : s'.players = s.players.mapValues f)
    (hmessages : ∀ k messages, s'.roomMessages.lookup k = some messages → s.roomMessages.lookup k = some messages)
    : s.Loses s' where
  lacks k hk := by
    rw [Lacks, hplayers, AssocMap.lookup_mapValues, hk]
    rfl
  tidy hs := by
    refine ⟨?_, fun k messages hk => hs.rooms k messages (hmessages k messages hk)⟩
    rw [hplayers]
    exact hs.ids.mapValues fun k player _ hid => (hf k player).trans hid

theorem of_keeps (h : Keeps s s') : s.Loses s' where
  lacks k hk := by
    have hmembers := h.members k
    rw [hk, Option.map_none] at hmembers
    exact Option.map_eq_none_iff.1 hmembers
  tidy hs := by
    refine ⟨fun k player' hk => ?_, by rw [h.roomMessages]; exact hs.rooms⟩
    have hmembers := h.members k
    rw [hk, Option.map_some] at hmembers
    obtain ⟨player, hplayer, hsame⟩ := Option.map_eq_some_iff.1 hmembers.symm
    exact (congrArg Prod.fst hsame).symm.trans (hs.ids k player hplayer)

end AppState.Loses

/--
The handler of a task, which neither registers sessions nor stores messages.
-/
structure Memory.IsTask (g : Memory) : Prop where
  op : g.req.op? = none
  connects (sid : String) : g.req ≠ .connect sid

theorem Memory.IsTask.next {g : Memory} (hg : g.IsTask) (l : Label) : (g.next l).IsTask := by
  obtain ⟨hop, hconnects⟩ := hg
  rw [← Memory.next_req g l] at hop hconnects
  exact ⟨hop, hconnects⟩

theorem enter_id (roomId : String) (player : PlayerSession) : (player.enter roomId).id = player.id := by
  unfold PlayerSession.enter
  split
  . rfl
  . rfl

theorem exit_id (roomId : String) (player : PlayerSession) : (player.exit roomId).id = player.id := rfl

theorem Transition.loses {g : Memory} {e : Env} {l : Label} (hg : g.IsTask) (h : Transition g e s l s') : s.Loses s' := by
  cases l with
  | quiet => exact .of_keeps h
  | broadcast recipients payload => exact .of_keeps h
  | file change => exact .of_keeps h
  | clock now => exact h.1 ▸ .refl s
  | reply sid payload => exact h.1 ▸ .refl s
  | actor userId username => exact .of_keeps h.1
  | token tokenHash userId => exact h.1 ▸ .refl s
  | account userId => exact h.1 ▸ .refl s
  | target userId => exact h.1 ▸ .refl s
  | located messageId roomId => exact h.1 ▸ .refl s
  | connected sid => exact absurd h.2 (hg.connects sid)
  | disconnected sid =>
    obtain rfl := h
    exact .of_gentle (.erase rfl rfl)
  | bound sid userId => exact absurd (hg.op.symm.trans h.1) (Option.some_ne_none _).symm
  | joined sid roomId userId =>
    obtain ⟨rfl, -⟩ := h
    exact .modify (enter_id roomId) rfl rfl
  | left sid roomId =>
    obtain ⟨rfl, -⟩ := h
    exact .modify (exit_id roomId) rfl rfl
  | removed userId roomId =>
    obtain ⟨rfl, -⟩ := h
    refine .mapValues ?_ rfl fun _ _ hk => hk
    intro k player
    split
    . exact exit_id roomId player
    . rfl
  | emptied roomId =>
    obtain ⟨rfl, -⟩ := h
    refine .mapValues (fun _ => exit_id roomId) rfl fun k messages hk => ?_
    replace hk := (AssocMap.lookup_erase ..).symm.trans hk
    split at hk
    . contradiction
    . exact hk
  | read roomId result => exact h.1 ▸ .refl s
  | wrote roomId record =>
    obtain ⟨rfl, -⟩ := h
    exact .frame rfl rfl
  | created roomId record =>
    obtain ⟨rfl, -⟩ := h
    exact .frame rfl rfl
  | erased roomId =>
    obtain ⟨rfl, -⟩ := h
    exact .frame rfl rfl
  | changed roomId change =>
    obtain ⟨rfl, hchange⟩ := h
    refine .of_gentle (.change fun message hstored => ?_)
    subst hstored
    exact absurd (hg.op.symm.trans hchange.1) (Option.some_ne_none _).symm

theorem AccountLabel.apply_loses (s : AccountState) (l : AccountLabel) : s.app.Loses (l.apply s).app := by
  cases l with
  | renamedSessions userId username =>
    refine .mapValues ?_ rfl fun _ _ hk => hk
    intro k player
    split
    . rfl
    . rfl
  | revalidated sid isAdmin badges username now =>
    refine .modify ?_ rfl rfl
    exact fun _ => rfl
  | _ => exact .frame rfl rfl

theorem AccountTransition.loses {g : AccountMemory} {e : AccountEnv} {s s' : AccountState} {l : AccountLabel}
    (hg : g.inner.IsTask) (h : AccountTransition g e s l s') : s.app.Loses s'.app ∧ (g.next l).inner.IsTask := by
  cases l with
  | handled sid sender label => exact ⟨h.1.loses hg, hg.next label⟩
  | found userId passwordHash => exact ⟨h.1 ▸ .refl _, hg⟩
  | listed userId sids => exact ⟨h.1 ▸ .refl _, hg⟩
  | closing sid payload => exact ⟨h.1 ▸ .refl _, rfl, fun _ => by simp [AccountMemory.next]⟩
  | _ => exact ⟨h.1 ▸ AccountLabel.apply_loses s _, hg⟩

end Steps

section Requests

variable {n : Deployment} {x : Externals} {sid : String}

/--
A piece that keeps the server in order and does not register the session.
-/
abbrev Steady (sid : String) (p : Node α) : Prop :=
  Prog.Conserves (fun s : NodeState => s.app.Orderly) (fun s => s.app.Lacks sid) p

theorem steady_of_conducts (sid' : String) {p : Node α} {Q : α → List NodeState → Prop} {h : List NodeState}
    (hp : NodeConducts sid' Q p h) : Steady sid p := by
  refine .of_abides (fun _ hs => hs.toTidy) (fun h e s l s' hs hok htidy => ?_) hp
  have hloses : s.app.Loses s'.app := .of_known hok.credentials fun _ => htidy
  exact ⟨hs.loses hloses, hloses.lacks sid⟩

section Handlers

abbrev SteadyProto (sid : String) (p : Proto α) : Prop := Prog.Conserves AppState.Orderly (·.Lacks sid) p

theorem SteadyProto.atom {f : Env → AppState → α × Label × AppState}
    (hf : ∀ e s, AppState.Loses s (f e s).2.2)
    : SteadyProto sid (Prog.atom f) :=
  fun e s hs => ⟨hs.loses (hf e s), (hf e s).lacks sid, trivial⟩

theorem SteadyProto.bind {p : Proto α} {f : α → Proto β} (hp : SteadyProto sid p) (hf : ∀ a, SteadyProto sid (f a))
    : SteadyProto sid (p >>= f) := Prog.Conserves.bind hp hf

theorem SteadyProto.of_conducts (sid' : String) {p : Proto α} (hp : Conducts.Any sid' p []) : SteadyProto sid p := by
  refine .of_abides (fun _ hs => hs.toTidy) (fun h e s l s' hs hok htidy => ?_) hp
  have hloses : s.Loses s' := .of_known hok.credentials fun _ => htidy
  exact ⟨hs.loses hloses, hloses.lacks sid⟩

theorem SteadyProto.handled {p : Proto α} (hp : SteadyProto sid p) (sender : Option String)
    : Steady sid (onProfiles (onSession sender p)) :=
  ((Prog.Conserves.zoom (handledView sender) hp).zoom accountView).zoom profileView

end Handlers

theorem steady_of_sound {p : Accounts α} {post : α → AccountMemory → Prop} {g : AccountMemory} (hg : g.inner.IsTask)
    (hp : AccountSound post p g) : Steady sid (onProfiles (onAccounts p)) := by
  have haccounts : Prog.Conserves (fun s : AccountState => s.app.Orderly) (fun s => s.app.Lacks sid) p := by
    refine .of_spec (fun g => g.inner.IsTask) (fun g e s l s' hg hs hok => ?_) hp hg
    obtain ⟨hloses, hnext⟩ := hok.loses hg
    exact ⟨hs.loses hloses, hloses.lacks sid, hnext⟩
  exact (haccounts.zoom accountView).zoom profileView

theorem isTask_start {req : AccountRequest} (hreq : req.offSocket = true) : ((accounts x).start req).inner.IsTask := by
  cases req with
  | websocket req =>
    cases req with
    | connect sid => contradiction
    | disconnect sid => contradiction
    | message sid op d => contradiction
    | _ => exact ⟨rfl, fun _ => by simp [accounts, AccountRequest.inner]⟩
  | _ => exact ⟨rfl, fun _ => by simp [accounts, AccountRequest.inner]⟩

section Profiles

/--
A service with the cache.
-/
abbrev SteadyProfiles (sid : String) (p : Profiles α) : Prop := Steady sid (onProfiles p)

namespace SteadyProfiles

theorem pure (a : α) : SteadyProfiles sid (pure a) := trivial

theorem bind {p : Profiles α} {f : α → Profiles β} (hp : SteadyProfiles sid p) (hf : ∀ a, SteadyProfiles sid (f a))
    : SteadyProfiles sid (p >>= f) := by
  rw [SteadyProfiles, onProfiles, Prog.zoom_bind]
  exact Prog.Conserves.bind hp hf

theorem run_bind {p : ProfileApi α} {f : α → ProfileApi β} (hp : SteadyProfiles sid p.run)
    (hf : ∀ a, SteadyProfiles sid (f a).run) : SteadyProfiles sid (p >>= f).run := by
  refine bind hp fun r => ?_
  cases r with
  | ok a => exact hf a
  | error err => exact pure _

theorem run_lift {p : Profiles α} (hp : SteadyProfiles sid p) : SteadyProfiles sid (ExceptT.lift p : ProfileApi α).run :=
  bind hp fun _ => pure _

theorem atom {f : AccountEnv → ProfileState → α × ProfileLabel × ProfileState}
    (hf : ∀ e s, AppState.Loses s.account.app (f e s).2.2.account.app) : SteadyProfiles sid (Prog.atom f) := by
  rw [SteadyProfiles, onProfiles, Prog.zoom_atom]
  exact fun e s hs => ⟨hs.loses (hf e s.profile), (hf e s.profile).lacks sid, trivial⟩

theorem invalidate (userId username : Option String)
    : SteadyProfiles sid (invalidatePublicProfileCache userId username) :=
  fun _ _ hs => ⟨hs, fun hlacks => hlacks, trivial⟩

theorem throw (err : ApiError) : SteadyProfiles sid (throw err : ProfileApi α).run := pure _

def memoryOf (req : AccountRequest) : AccountMemory := { req, inner := { req := .preview 0 } }

theorem isTask_memoryOf (req : AccountRequest) : (memoryOf req).inner.IsTask := ⟨rfl, fun _ => by simp [memoryOf]⟩

theorem onApi {p : Api α} {post : α → AccountMemory → Prop} (req : AccountRequest) (hp : ApiSound post p (memoryOf req))
    : SteadyProfiles sid (onApi p).run := steady_of_sound (isTask_memoryOf req) hp

theorem authenticate (token : String) : SteadyProfiles sid (Lqxp.onApi (authenticate token)).run :=
  onApi (.me token) (.authenticate ⟨rfl, rfl⟩ fun _ _ _ => trivial : ApiSound (fun _ _ => True) _ _)

theorem authenticatedUser (token : String) : SteadyProfiles sid (authenticatedUser token).run := by
  refine run_bind (authenticate token) fun user => ?_
  cases user with
  | some user => exact pure _
  | none => exact throw _

theorem routeRateLimit (key : String) (limit windowMs : Nat) (text : String)
    : SteadyProfiles sid (routeRateLimit key limit windowMs text).run := by
  have hlimit : SteadyProto sid (hitRateLimit key limit windowMs) := .of_conducts sid (.hitRateLimit _ _ _)
  refine run_bind (run_lift (hlimit.handled none)) fun limited => ?_
  split
  . exact throw _
  . exact pure _

theorem adminRateLimit (action adminId : String) (limit windowMs : Nat)
    : SteadyProfiles sid (adminRateLimit action adminId limit windowMs).run := routeRateLimit _ _ _ _

theorem uploadProfileImage (user : AuthenticatedUser) (kind : String) (file : UploadedFile)
    : SteadyProto sid (Http.uploadProfileImage user kind file) := by
  refine .of_conducts sid (Conducts.uploadProfileImage user kind file)

-- Its first step compares a text, and to look for that step goes through the text's characters.
attribute [local irreducible] Http.uploadProfileImage

theorem uploadImage (user : AuthenticatedUser) (kind : String) (file : UploadedFile)
    : SteadyProfiles sid (Cached.uploadProfileImage user kind file) := by
  refine bind ((uploadProfileImage user kind file).handled none) fun answer => ?_
  cases answer with
  | ok answer => exact bind (invalidate _ _) fun _ => pure _
  | error text => exact pure _

theorem changeUsername (user : AuthenticatedUser) (newUsername : String)
    : SteadyProfiles sid (Cached.changeUsername x user newUsername).run := by
  refine run_bind (onApi (.changeUsername user newUsername) (Auth.changeUsername_sound ⟨rfl, rfl⟩)) fun reply => ?_
  split
  . exact run_bind (run_lift (invalidate _ _)) fun _ => run_bind (run_lift (invalidate _ _)) fun _ => pure _
  . exact pure _

theorem broadcastBadgeUpdate (user : PublicUser) : SteadyProto sid (broadcastBadgeUpdate user) := by
  have hall (rooms : List String) : SteadyProto sid (announceBadgesAll user rooms) := by
    induction rooms with
    | nil => trivial
    | cons roomId rooms ih =>
      refine .bind (.of_conducts sid (Conducts.look _).any) fun players => ?_
      exact .bind (.of_conducts sid (Conducts.broadcastToRoom rfl rfl)) fun _ => ih
  refine .bind (SteadyProto.atom fun e s => ?_) fun shared => .bind (SteadyProto.atom fun e s => .refl s) fun _ => hall _
  refine .mapValues ?_ rfl fun _ _ hk => hk
  intro k player
  split
  . rfl
  . rfl

theorem setUserBadges (admin : AuthenticatedUser) (targetUserId : String) (badges : List String)
    : SteadyProfiles sid (Cached.setUserBadges x admin targetUserId badges).run := by
  unfold Cached.setUserBadges
  split
  . exact throw _
  have hwrite (customBadges : List String)
      : SteadyProfiles sid (AccountDatabase.updateCustomBadges targetUserId customBadges).run := by
    refine atom fun e s => ?_
    split
    . exact .refl _
    . exact .frame rfl rfl
  have hupdate : SteadyProfiles sid (AccountDatabase.setUserBadges x targetUserId badges).run := by
    refine run_bind (hwrite _) fun _ => run_bind ?_ fun updated => ?_
    . exact onApi (.me "") (.findUserById fun _ _ => trivial : ApiSound (fun _ _ => True) _ _)
    . cases updated with
      | some updated => exact pure _
      | none => exact throw _
  refine run_bind hupdate fun updated => run_bind (run_lift ((broadcastBadgeUpdate _).handled none)) fun _ => ?_
  exact run_bind (run_lift (invalidate _ _)) fun _ => pure _

theorem deleteAccount (token password : String) : SteadyProfiles sid (Cached.deleteAccount x token password).run := by
  refine run_bind (authenticate token) fun user => ?_
  cases user with
  | some user =>
    let g := memoryOf (.deleteAccount token password)
    have hdelete : ApiSound (fun _ _ => True) (AccountDatabase.deleteAccount x token password) g :=
      .deleteAccount ⟨rfl, rfl⟩ fun _ _ => trivial
    have hleave : AccountSound (fun _ _ => True) (disconnectUserSessions user.id "Account deleted.") g :=
      .disconnectUserSessions fun _ _ _ _ => trivial
    refine run_bind (onApi _ hdelete) fun _ => run_bind (run_lift ?_) fun _ => ?_
    . exact steady_of_sound (isTask_memoryOf _) hleave
    . exact run_bind (run_lift (invalidate _ _)) fun _ => pure _
  | none => exact throw _

theorem deleteUserAccount (admin : AuthenticatedUser) (targetUserId : String)
    : SteadyProfiles sid (Cached.deleteUserAccount admin targetUserId).run :=
  run_bind (onApi (.deleteUserAccount admin targetUserId) (Admin.deleteUserAccount_sound ⟨rfl, rfl⟩)) fun _ =>
    run_bind (run_lift (invalidate _ _)) fun _ => pure _

theorem api (req : ProfileRequest) (hreq : req.offSocket = true) : SteadyProfiles sid (req.api x).run := by
  cases req with
  | lookup sid d => contradiction
  | settings sid d => contradiction
  | uploadImage token kind file =>
    refine run_bind (authenticatedUser token) fun user => run_bind (routeRateLimit _ _ _ _) fun _ => ?_
    exact run_bind (run_lift (uploadImage _ _ _)) fun _ => pure _
  | changeUsername token newUsername =>
    refine run_bind (authenticatedUser token) fun user => run_bind (routeRateLimit _ _ _ _) fun _ => ?_
    exact run_bind (changeUsername _ _) fun _ => pure _
  | setUserBadges token targetUserId badges =>
    refine run_bind (authenticatedUser token) fun admin => run_bind (adminRateLimit _ _ _ _) fun _ => ?_
    exact run_bind (setUserBadges _ _ _) fun _ => pure _
  | deleteAccount token password => exact run_bind (deleteAccount _ _) fun _ => pure _
  | deleteUserAccount token targetUserId =>
    refine run_bind (authenticatedUser token) fun admin => run_bind (adminRateLimit _ _ _ _) fun _ => ?_
    exact run_bind (deleteUserAccount _ _) fun _ => pure _
  | purgeAccounts token filter =>
    refine run_bind (authenticatedUser token) fun admin => run_bind (routeRateLimit _ _ _ _) fun _ => ?_
    exact run_bind (onApi (.purgeAccounts admin filter) (Admin.purgeAccounts_sound ⟨rfl, rfl⟩)) fun _ => pure _

end SteadyProfiles

end Profiles

theorem steady_serveFrames {sid' : String} (frames : List Frame) : Steady sid (serveFrames n sid' frames) := by
  induction frames with
  | nil => trivial
  | cons frame frames ih =>
    cases frame with
    | close => trivial
    | ping => exact ih
    | text payload =>
      refine .bind (steady_of_conducts sid' (h := []) (NodeConducts.onSocket (.hitRateLimit _ _ _))) fun limited => ?_
      split
      . exact .bind (steady_of_conducts sid' (h := []) (NodeConducts.sendJson rfl)) fun _ => trivial
      refine .bind (steady_of_conducts sid' (h := []) (NodeConducts.processMessage payload)) fun outcome => ?_
      cases outcome with
      | goesOn => exact ih
      | closes => trivial
      | panics => trivial

theorem orderly_connected {s : AppState} (hs : s.Orderly) (hroom : ¬maxConcurrentSessions ≤ s.players.size)
    : AppState.Orderly { s with players := s.players.insert sid { id := sid } } where
  ids := hs.ids.insert rfl
  rooms := hs.rooms
  size := by
    have hle := Fifo.size_insert_le sid ({ id := sid } : PlayerSession) s.players
    have hsize := hs.size
    simp only [AssocMap.size] at *
    omega

theorem steady_served {sid' : String} (frames : List Frame)
    : Steady sid (do
      sendJson sid' (message 10 [("heartbeat_interval", .int n.heartbeatInterval)])
      let ending ← serveFrames n sid' frames
      if ending = .panicked then
        return Ending.panicked
      else
        onSocket sid' (disconnectPlayer sid')
        return Ending.finished) := by
  refine .bind (steady_of_conducts sid' (h := []) (NodeConducts.sendJson rfl)) fun _ => ?_
  refine .bind (steady_serveFrames frames) fun ending => ?_
  split
  . trivial
  . exact .bind ((SteadyProto.of_conducts sid' Conducts.disconnectPlayer).handled (some sid')) fun _ => trivial

/--
Whether a frame asks for something that may panic: it publishes a prekey or changes the blocks, and the digits of the
keys are cut out of a text without a look at its characters.
-/
def Frame.mayPanic : Frame → Bool
  | .text (some payload) => payload.op = 36 || payload.op = 39
  | _ => false

abbrev OwesLeave (sid : String) (excused : α → Prop) (p : Node α) : Prop :=
  Prog.Owes (fun s : NodeState => s.app.Orderly) (fun s => s.app.Lacks sid) excused p

theorem owes_outcomeOf (p : Node Bool) : OwesLeave sid (· ≠ .panics) (outcomeOf p) := by
  refine .bind_right fun closed => ?_
  split
  . exact Outcome.noConfusion
  . exact Outcome.noConfusion

theorem owes_runOp {sid' : String} (payload : SocketPayload)
    : OwesLeave sid (fun outcome => outcome = .panics → (Frame.text (some payload)).mayPanic = true)
        (runOp n sid' payload) := by
  have hother (p : Node Bool) : OwesLeave sid (fun outcome => outcome = .panics →
      (Frame.text (some payload)).mayPanic = true) (outcomeOf p) :=
    (owes_outcomeOf p).mono fun _ hne heq => absurd heq hne
  unfold runOp
  split
  . exact hother _
  next hop => exact .of_forall (fun _ _ => by simp [Frame.mayPanic, hop]) _
  . exact hother _
  next hop => exact .of_forall (fun _ _ => by simp [Frame.mayPanic, hop]) _
  . exact hother _
  . split
    . exact hother _
    . exact hother _

theorem owes_processMessage {sid' : String} (payload : Option SocketPayload)
    : OwesLeave sid (fun outcome => outcome = .panics → (Frame.text payload).mayPanic = true)
        (processMessage n sid' payload) := by
  cases payload with
  | none => exact Outcome.noConfusion
  | some payload =>
    refine .bind_right fun passed => ?_
    split
    . exact owes_runOp payload
    . exact .bind_right fun _ => Outcome.noConfusion

theorem owes_serveFrames {sid' : String} (frames : List Frame)
    : OwesLeave sid (fun ending => ending = .panicked → frames.any Frame.mayPanic = true)
        (serveFrames n sid' frames) := by
  induction frames with
  | nil => exact Ending.noConfusion
  | cons frame frames ih =>
    have hlater {ending : Ending} (h : ending = .panicked → frames.any Frame.mayPanic = true)
        (hpanicked : ending = .panicked) : (frame :: frames).any Frame.mayPanic = true := by
      rw [List.any_cons, h hpanicked, Bool.or_true]
    cases frame with
    | close => exact Ending.noConfusion
    | ping => exact ih.mono fun _ => hlater
    | text payload =>
      refine .bind_right fun limited => ?_
      split
      . exact .bind_right fun _ => Ending.noConfusion
      refine (owes_processMessage payload).bind fun outcome houtcome => ?_
      cases outcome with
      | goesOn => exact ih.mono fun _ => hlater
      | closes => exact Ending.noConfusion
      | panics =>
        intro _
        rw [List.any_cons, houtcome rfl, Bool.true_or]

theorem owes_disconnectPlayer : OwesLeave sid (fun _ => False) (onSocket sid (disconnectPlayer sid)) := by
  have hproto : Prog.Owes AppState.Orderly (·.Lacks sid) (fun _ => False) (disconnectPlayer sid) := by
    refine .atom_bind fun e s hs => ?_
    split
    . exact (AssocMap.lookup_erase ..).trans (if_pos rfl)
    . assumption
  exact ((hproto.zoom (handledView (some sid))).zoom accountView).zoom profileView

theorem onSocket_atom (f : Env → AppState → α × Label × AppState)
    : onSocket sid (.atom f)
        = .atom fun e s =>
          ((f e.toEnv s.app).1,
            .profile (.account (.handled (some sid) (s.app.players.lookup sid) (f e.toEnv s.app).2.1)),
            { s with profile :=
                { s.profile with account := { s.profile.account with app := (f e.toEnv s.app).2.2 } } }) := rfl

theorem restores_handleSocket (frames : List Frame)
    : Prog.Restores (fun s : NodeState => s.app.Orderly) (fun s => s.app.Lacks sid)
        (fun ending => ending = .panicked ∧ frames.any Frame.mayPanic = true) (handleSocket n sid frames) := by
  rw [handleSocket, registerConnection, onSocket_atom]
  refine .atom_bind fun e s hs => ?_
  by_cases hroom : maxConcurrentSessions ≤ s.app.players.size
  . simp only [if_pos hroom]
    exact ⟨hs, fun hlacks => .inl hlacks, trivial⟩
  . simp only [if_neg hroom]
    refine ⟨orderly_connected hs hroom, fun _ => .inr ?_, (steady_served frames).restores⟩
    refine .bind_right fun _ => (owes_serveFrames frames).bind fun ending hending => ?_
    split
    next hpanicked => exact ⟨rfl, hending hpanicked⟩
    next => exact owes_disconnectPlayer.bind fun _ hfalse => hfalse.elim

theorem steady_handleSocket {sid' : String} (hne : sid' ≠ sid) (frames : List Frame)
    : Steady sid (handleSocket n sid' frames) := by
  rw [handleSocket, registerConnection, onSocket_atom]
  refine .atom_bind fun e s hs => ?_
  by_cases hroom : maxConcurrentSessions ≤ s.app.players.size
  . simp only [if_pos hroom]
    exact ⟨hs, fun hlacks => hlacks, trivial⟩
  . simp only [if_neg hroom]
    refine ⟨orderly_connected hs hroom, fun hlacks => ?_, steady_served frames⟩
    exact (AssocMap.lookup_insert ..).trans ((if_neg hne.symm).trans hlacks)

theorem steady_handle (req : NodeRequest) (hreq : ∀ frames, req ≠ .socket sid frames) : Steady sid (req.handle n) := by
  cases req with
  | socket sid' frames => exact steady_handleSocket (fun heq => hreq frames (by rw [heq])) frames
  | account req hoff =>
    exact .bind (steady_of_sound (isTask_start (x := n.externals) hoff) (AccountSound.handle req)) fun _ => trivial
  | profile req hoff =>
    exact .bind (SteadyProfiles.bind (SteadyProfiles.api req hoff) fun _ => SteadyProfiles.pure _) fun _ => trivial
  | prekey username =>
    have hlimit : SteadyProto sid (hitRateLimit "phantom:prekey:global" 60 60000) :=
      .of_conducts sid (.hitRateLimit _ _ _)
    refine .bind (.bind (.bind (hlimit.handled none) fun _ => trivial) fun limited => ?_) fun _ => trivial
    cases limited with
    | error err => trivial
    | ok limited =>
      cases limited with
      | true => trivial
      | false => exact steady_of_conducts sid (h := []) (NodeConducts.getPrekeyByUsername n.externals username)

def excusedFor : NodeRequest → Ending → Prop
  | .socket _ frames, ending => ending = .panicked ∧ frames.any Frame.mayPanic = true
  | _, _ => False

/--
At every moment of every run, each session belongs to a connection that takes it away again before it ends, unless
the task of the connection panics, over a frame that publishes a prekey or changes the blocks. The sessions are never
more than may be, and they and the messages are in their places.
-/
theorem sessions_served (n : Deployment)
    {adm : NodeRequest → AccountEnv → NodeState → NodeLabel → NodeState → Prop}
    {p q : Prog.Pool AccountEnv NodeState NodeLabel NodeRequest Ending}
    {tr : List (Prog.Event NodeRequest AccountEnv NodeLabel NodeRequest)} (run : Prog.Run (node n) adm p tr q)
    (hp : p.threads = []) (hplayers : p.state.app.players = ∅) (hmessages : p.state.app.roomMessages = ∅)
    : q.state.app.Orderly
        ∧ ∀ sid player, q.state.app.players.lookup sid = some player →
          ∃ i frames th, Prog.Event.start i (.socket sid frames) ∈ tr ∧ q.threads[i]? = some th
            ∧ OwesLeave sid (fun ending => ending = .panicked ∧ frames.any Frame.mayPanic = true) th.rest := by
  have horderly : p.state.app.Orderly := by
    refine ⟨⟨?_, ?_⟩, ?_⟩
    . rw [hplayers]
      exact AssocMap.All.empty
    . rw [hmessages]
      exact AssocMap.All.empty
    . rw [hplayers]
      exact Nat.zero_le _
  have hserved (sid : String)
      : q.state.app.Orderly
          ∧ (q.state.app.Lacks sid
            ∨ ∃ i req th, Prog.Event.start i req ∈ tr ∧ (∃ frames, req = .socket sid frames) ∧ q.threads[i]? = some th
              ∧ OwesLeave sid (excusedFor req) th.rest) := by
    have howner (req : NodeRequest) (hreq : ∃ frames, req = .socket sid frames)
        : Prog.Restores (fun s : NodeState => s.app.Orderly) (fun s => s.app.Lacks sid) (excusedFor req)
          ((node n).handle req) := by
      obtain ⟨frames, rfl⟩ := hreq
      exact restores_handleSocket frames
    have hothers (req : NodeRequest) (hreq : ¬∃ frames, req = .socket sid frames) : Steady sid ((node n).handle req) :=
      steady_handle req fun frames heq => hreq ⟨frames, heq⟩
    have hlacks : p.state.app.Lacks sid := by
      rw [AppState.Lacks, hplayers]
      rfl
    have hsettled := Prog.Run.restored howner hothers run hp horderly hlacks
    exact ⟨hsettled.kept, hsettled.paid⟩
  refine ⟨(hserved "").1, fun sid player hplayer => ?_⟩
  rcases (hserved sid).2 with hlacks | ⟨i, req, th, hstart, ⟨frames, rfl⟩, hthread, howes⟩
  . exact absurd hplayer (by rw [hlacks]; exact (Option.some_ne_none _).symm)
  . exact ⟨i, frames, th, hstart, hthread, howes⟩

section Example

def emptyNode : Prog.Pool AccountEnv NodeState NodeLabel NodeRequest Ending := ⟨{ profile := { account := { app := {} } } }, []⟩

def adaConnects : List (Prog.Cmd NodeRequest AccountEnv) :=
  Prog.Cmd.serve (.socket "ada" [.ping, .text (some { op := 1 })]) 0 3 .calm

theorem sessions_served_ada
    : ∃ tr q, Prog.Run (node laxDeployment) (fun _ _ _ _ _ => True) emptyNode tr q
        ∧ q.state.app.players.size = 1
        ∧ ∃ i frames th, Prog.Event.start i (.socket "ada" frames) ∈ tr ∧ q.threads[i]? = some th
          ∧ OwesLeave "ada" (fun ending => ending = .panicked ∧ frames.any Frame.mayPanic = true) th.rest := by
  obtain ⟨tr, q, hexec, htest⟩ := Prog.Run.exists_of_exec (node laxDeployment) (fun _ _ _ _ _ => true) adaConnects
    emptyNode (fun _ q => (q.state.app.players.lookup "ada").isSome && q.state.app.players.size = 1) (by decide +kernel)
  have hrun : Prog.Run (node laxDeployment) (fun _ _ _ _ _ => True) emptyNode tr q := hexec.mono fun _ _ _ _ _ _ => trivial
  obtain ⟨hlookup, hsize⟩ := Bool.and_eq_true_iff.1 htest
  obtain ⟨player, hplayer⟩ := Option.isSome_iff_exists.1 hlookup
  exact ⟨tr, q, hrun, of_decide_eq_true hsize, (sessions_served laxDeployment hrun rfl rfl rfl).2 "ada" player hplayer⟩

end Example

end Requests

end Lqxp
