import Lqxp.Websocket.Confinement
import Lqxp.Websocket.Protocol.Lemmas.Replies

/-!
This module contains that a connection that has not said who it is achieves nothing: whatever it sends, others hear
nothing of it, nothing of theirs changes, and all that it hears itself is that it is refused or has changed itself.
-/

namespace Lqxp

namespace AppState

/--
The session, if it is registered at all, belongs to nobody and is in no room. Nobody has a role in a room.
-/
structure Blank (s : AppState) (sid : String) : Prop where
  session (player : PlayerSession) : s.players.lookup sid = some player →
    player.userId = "" ∧ player.username = "" ∧ player.rooms = []
  records (roomId : String) (room : RoomRecord) : s.database.lookup roomId = some room → isRoomAdmin room "" = false

/--
The keys under which the requests of a session that belongs to nobody are counted.
-/
def OwnKey (sid key : String) : Prop := ∃ name, key = name ++ ":session:" ++ sid

/--
The parts of the state that concern others than the session are as before. A bucket of others is gone at most when its
window is over, and files are only added.
-/
structure SameButFor (sid : String) (now : Nat) (s s' : AppState) : Prop where
  players (k : String) : k ≠ sid → s'.players.lookup k = s.players.lookup k
  roomMessages : s'.roomMessages = s.roomMessages
  database : s'.database = s.database
  users (k : String) : k ≠ "" → s'.accounts.users.lookup k = s.accounts.users.lookup k
  accounts : s'.accounts = { s.accounts with users := s'.accounts.users }
  rateLimits (key : String) : ¬ OwnKey sid key →
    s'.rateLimits.lookup key = s.rateLimits.lookup key
      ∨ s'.rateLimits.lookup key = none
        ∧ ∀ bucket, s.rateLimits.lookup key = some bucket → bucket.windowMs < now - bucket.windowStartMs
  previewTasks : s'.previewTasks = s.previewTasks
  callAccessOverrides (roomId : String)
    : roomId ∈ s'.callAccessOverrides ↔ roomId ∈ s.callAccessOverrides
  uploads : s.uploads <+: s'.uploads
  uploadPublicBase : s'.uploadPublicBase = s.uploadPublicBase
  callsEnabled : s'.callsEnabled = s.callsEnabled

end AppState

/--
The operations whose answers are about nothing but the connection itself.
-/
def ownOps : List Nat := [0, 1, 6, 8, 98]

/--
A refusal, or an answer that is about nothing but the connection itself.
-/
def IsRefusal (payload : Json) : Prop :=
  ((payload.get? "d").bind (·.get? "error")).isSome ∨ ∃ op ∈ ownOps, payload.get? "op" = some (.int op)

/--
A step that others do not notice.
-/
structure Inert (sid : String) (now : Nat) (s : AppState) (l : Label) (s' : AppState) : Prop where
  queued : ∀ m ∈ l.queued, m.1 = sid ∧ IsRefusal m.2
  same : s.SameButFor sid now s'

/--
A handler on behalf of a session that has not said who it is, with its answer.
-/
abbrev Inerts (sid : String) (Q : α → Prop) (p : Proto α) : Prop :=
  ∀ h, Prog.Abides (·.Blank sid) (fun _ e s l s' => Inert sid e.now s l s') (fun a _ => Q a) p h

/--
A handler that leaves the connection open.
-/
abbrev TurnsDown (sid : String) (p : Proto Bool) : Prop := Inerts sid (· = false) p

variable {sid : String} {now : Nat} {s s' : AppState}

theorem get?_op_withRequestId (op : Nat) (d : List (String × Json)) (reqId : Option String)
    : (withRequestId (message op d) reqId).get? "op" = some (.int op) := by
  cases reqId with
  | none => rfl
  | some reqId =>
    simp only [withRequestId, get?_d_message]
    simp [message, Json.get?_insert]
    rfl

section Steps

namespace AppState.SameButFor

theorem refl (sid : String) (now : Nat) (s : AppState) : s.SameButFor sid now s :=
  ⟨fun _ _ => rfl, rfl, rfl, fun _ _ => rfl, rfl, fun _ _ => .inl rfl, rfl, fun _ => .rfl, List.prefix_rfl, rfl, rfl⟩

theorem modify {f : PlayerSession → PlayerSession} (hs' : s' = { s with players := s.players.modify sid f })
    : s.SameButFor sid now s' := by
  subst hs'
  exact { refl sid now s with players := fun k hne => AssocMap.lookup_modify_ne hne f s.players }

theorem updateUser {f : StoredUser → StoredUser}
    (hs' : s' = { s with accounts := { s.accounts with users := s.accounts.users.modify "" f } })
    : s.SameButFor sid now s' := by
  subst hs'
  exact { refl sid now s with users := fun k hne => AssocMap.lookup_modify_ne hne f _, accounts := rfl }

theorem upload (uploads : List String) (hs' : s' = { s with uploads }) (huploads : s.uploads <+: uploads)
    : s.SameButFor sid now s' := by
  subst hs'
  exact { refl sid now s with uploads := huploads }

theorem hit {key : String} (hkey : OwnKey sid key) (limit windowMs : Nat)
    (hs' : s' = { s with rateLimits := (rateLimitHit now key limit windowMs s.rateLimits).2 })
    : s.SameButFor sid now s' := by
  subst hs'
  refine { refl sid now s with rateLimits := fun key' hown => ?_ }
  have hne : key' ≠ key := by
    rintro rfl
    exact hown hkey
  rw [rateLimitHit]
  dsimp only
  rw [AList.lookup_insert_ne hne]
  split
  . rw [AssocMap.lookup_retain]
    cases hlookup : s.rateLimits.lookup key' with
    | none => exact .inl rfl
    | some bucket =>
      by_cases hrunning : now - bucket.windowStartMs ≤ bucket.windowMs
      . exact .inl (by simp [Option.filter, hrunning])
      . refine .inr ⟨by simp [Option.filter, hrunning], fun bucket' hbucket' => ?_⟩
        obtain rfl := Option.some.inj hbucket'
        exact Nat.lt_of_not_le hrunning
  . exact .inl rfl

end AppState.SameButFor

theorem AppState.Blank.frame (hs : s.Blank sid) (hplayers : s'.players = s.players) (hdatabase : s'.database = s.database)
    : s'.Blank sid :=
  ⟨by rw [hplayers]; exact hs.session, by rw [hdatabase]; exact hs.records⟩

theorem AppState.Blank.modify {f : PlayerSession → PlayerSession} (hs : s.Blank sid)
    (hf : ∀ player, (f player).userId = player.userId ∧ (f player).username = player.username
      ∧ (f player).rooms = player.rooms)
    (hs' : s' = { s with players := s.players.modify sid f }) : s'.Blank sid := by
  subst hs'
  refine ⟨fun player' hplayer' => ?_, hs.records⟩
  replace hplayer' := (AssocMap.lookup_modify_self ..).symm.trans hplayer'
  obtain ⟨player, hplayer, rfl⟩ := Option.map_eq_some_iff.1 hplayer'
  obtain ⟨huserId, husername, hrooms⟩ := hf player
  rw [huserId, husername, hrooms]
  exact hs.session player hplayer

end Steps

namespace Inerts

variable {Q : α → Prop} {R : β → Prop}

theorem pure {a : α} (ha : Q a) : Inerts sid Q (pure a) := fun _ => ha

theorem bind {p : Proto α} {f : α → Proto β} (hp : Inerts sid Q p) (hf : ∀ a, Q a → Inerts sid R (f a))
    : Inerts sid R (p >>= f) :=
  fun h => (hp h).bind fun a h' _ ha => hf a ha h'

theorem mono {Q' : α → Prop} {p : Proto α} (hp : Inerts sid Q p) (hQ : ∀ a, Q a → Q' a) : Inerts sid Q' p :=
  fun h => (hp h).mono fun a _ _ ha => hQ a ha

theorem any {p : Proto α} (hp : Inerts sid Q p) : Inerts sid (fun _ => True) p := hp.mono fun _ _ => trivial

theorem atom {f : Env → AppState → α × Label × AppState}
    (hf : ∀ e s, s.Blank sid → Inert sid e.now s (f e s).2.1 (f e s).2.2 ∧ (f e s).2.2.Blank sid ∧ Q (f e s).1)
    : Inerts sid Q (Prog.atom f) :=
  fun _ => Prog.Abides.atom hf

theorem quiet {f : Env → AppState → α × Label × AppState}
    (hf : ∀ e s, (f e s).2.1.queued = [] ∧ (f e s).2.2 = s)
    : Inerts sid (fun a => ∃ e s, s.Blank sid ∧ a = (f e s).1) (Prog.atom f) := by
  refine atom fun e s hs => ?_
  obtain ⟨hqueued, hsame⟩ := hf e s
  rw [hsame]
  exact ⟨⟨by simp [hqueued], .refl sid _ s⟩, hs, e, s, hs, rfl⟩

theorem look (f : Env → AppState → α) : Inerts sid (fun a => ∃ e s, s.Blank sid ∧ a = f e s) (Lqxp.look f) :=
  quiet fun _ _ => ⟨rfl, rfl⟩

theorem hitRateLimit {key : String} (hkey : AppState.OwnKey sid key) (limit windowMs : Nat)
    : Inerts sid (fun _ => True) (hitRateLimit key limit windowMs) :=
  atom fun _ _ hs => ⟨⟨by simp [Label.queued], .hit hkey limit windowMs rfl⟩, hs.frame rfl rfl, trivial⟩

theorem nowMs : Inerts sid (fun _ => True) nowMs := (quiet fun _ _ => ⟨rfl, rfl⟩).any

theorem storeUploadedBytes (extension : String) (bytes : List UInt8) (mimeType : String)
    : Inerts sid (fun _ => True) (storeUploadedBytes extension bytes mimeType) := by
  have hstored (s : AppState) (id : String)
      : s.uploads <+: if s.uploads.contains id then s.uploads else s.uploads ++ [id] := by
    split
    . exact List.prefix_rfl
    . exact List.prefix_append _ _
  refine atom fun e s hs => ?_
  split
  . exact ⟨⟨by simp [Label.queued], .refl sid _ s⟩, hs, trivial⟩
  . exact ⟨⟨by simp [Label.queued], .upload _ rfl (hstored s _)⟩, hs.frame rfl rfl, trivial⟩

theorem roomRecord (roomId : String)
    : Inerts sid (fun room => ∀ r, room = some r → isRoomAdmin r "" = false) (roomRecord roomId) := by
  refine (quiet fun _ _ => ⟨rfl, rfl⟩).mono ?_
  rintro room ⟨e, s, hs, rfl⟩ r hr
  dsimp only [Env.readRoom] at hr
  split at hr
  . contradiction
  . exact hs.records roomId r hr

theorem getPlayer
    : Inerts sid (fun player => ∀ p, player = some p → p.userId = "" ∧ p.username = "" ∧ p.rooms = [])
        (getPlayer sid) := by
  have hquiet : Inerts sid _ (Lqxp.getPlayer sid) := quiet fun e s => by
    split
    . exact ⟨rfl, rfl⟩
    . exact ⟨rfl, rfl⟩
  refine hquiet.mono ?_
  rintro player ⟨e, s, hs, rfl⟩ p hp
  split at hp
  next player hplayer =>
    obtain rfl := Option.some.inj hp
    exact hs.session _ hplayer
  next => contradiction

theorem sessionIdentity : Inerts sid (· = none) (sessionIdentity sid) := by
  refine getPlayer.bind fun player hplayer => ?_
  split
  next p =>
    rw [if_pos (by simp [hplayer p rfl])]
    exact .pure rfl
  next => exact .pure rfl

theorem identifiedPlayer : Inerts sid (· = none) (identifiedPlayer sid) := by
  refine getPlayer.bind fun player hplayer => .pure ?_
  cases player with
  | none => rfl
  | some p => simp [Option.filter, hplayer p rfl]

theorem resolveRoomForSession (requestedRoom : Option String)
    : Inerts sid (fun answer => ∃ text, answer = .error text) (resolveRoomForSession sid requestedRoom) := by
  refine (look _).mono ?_
  rintro answer ⟨e, s, hs, rfl⟩
  split
  . exact ⟨_, rfl⟩
  next player hplayer => exact ⟨_, if_pos (hs.session player hplayer).2.1⟩

theorem respondToSender {payload : Json} (hpayload : IsRefusal payload)
    : Inerts sid (fun _ => True) (respondToSender sid payload) := by
  refine atom fun e s hs => ?_
  split
  . refine ⟨⟨fun m hm => ?_, .refl sid _ s⟩, hs, trivial⟩
    obtain rfl := List.mem_singleton.1 hm
    exact ⟨rfl, hpayload⟩
  . exact ⟨⟨by simp [Label.queued], .refl sid _ s⟩, hs, trivial⟩

theorem respondError (op : Nat) (text : String) (reqId : Option String)
    : TurnsDown sid (respondError sid op text reqId) := by
  refine (respondToSender (.inl ?_)).bind fun _ _ => .pure rfl
  cases reqId with
  | none => rfl
  | some reqId =>
    simp only [withRequestId, get?_d_message]
    simp [message, Json.get?_insert, Option.filter, Json.isObject]
    rfl

section Handlers

theorem respondOk {op : Nat} (d : List (String × Json)) (reqId : Option String) (hop : op ∈ ownOps)
    : TurnsDown sid (respondOk sid op d reqId) := by
  exact (respondToSender (.inr ⟨op, hop, get?_op_withRequestId ..⟩)).bind fun _ _ => .pure rfl

theorem communityRequest {op : Nat} {key : String} {limit windowMs : Nat} {notCommunity : String} {d : Json}
    {body : String × String → String → RoomRecord → Proto Bool}
    : TurnsDown sid (communityRequest op key limit windowMs notCommunity sid d body) := by
  refine (hitRateLimit ⟨key, rfl⟩ _ _).bind fun limited _ => ?_
  split
  . exact respondError _ _ _
  refine sessionIdentity.bind fun actor hactor => ?_
  subst hactor
  exact respondError _ _ _

theorem changeRoom {op : Nat} {key : String} {limit windowMs : Nat} {limited : String} {d : Json}
    {body : String → Proto Bool} : TurnsDown sid (changeRoom op key limit windowMs limited sid d body) := by
  have haccount : Inerts sid (· = "") (accountOf sid) := by
    refine getPlayer.bind fun player hplayer => .pure ?_
    cases player with
    | none => rfl
    | some p => exact (hplayer p rfl).1
  refine haccount.bind fun userId huserId => ?_
  subst huserId
  refine (hitRateLimit ⟨key, rfl⟩ _ _).bind fun limited _ => ?_
  split
  . exact respondError _ _ _
  refine (resolveRoomForSession _).bind fun answer hanswer => ?_
  obtain ⟨text, rfl⟩ := hanswer
  exact respondError _ _ _

section Rooms

theorem joinGame (d : Json) : TurnsDown sid (joinGame sid d) := by
  have henter (roomId : String)
      : Inerts sid (fun answer => ∃ text, answer = .error text) (enterRoom sid roomId) := by
    refine atom fun e s hs => ?_
    split
    . exact ⟨⟨by simp [Label.queued], .refl sid _ s⟩, hs, _, rfl⟩
    next player hplayer =>
      rw [if_pos (hs.session player hplayer).2.1]
      exact ⟨⟨by simp [Label.queued], .refl sid _ s⟩, hs, _, rfl⟩
  refine (hitRateLimit ⟨"join", rfl⟩ _ _).bind fun limited _ => ?_
  split
  . exact respondError _ _ _
  split
  . split
    . exact respondError _ _ _
    refine (henter _).bind fun answer hanswer => ?_
    obtain ⟨text, rfl⟩ := hanswer
    exact respondError _ _ _
  . exact respondError _ _ _

theorem leaveGame (d : Json) : TurnsDown sid (leaveGame sid d) := by
  have hquit (roomId : String) : Inerts sid (fun answer => ∃ text, answer = .error text) (quitRoom sid roomId) := by
    refine atom fun e s hs => ?_
    split
    . exact ⟨⟨by simp [Label.queued], .refl sid _ s⟩, hs, _, rfl⟩
    next player hplayer =>
      rw [if_neg (by simp [(hs.session player hplayer).2.2])]
      exact ⟨⟨by simp [Label.queued], .refl sid _ s⟩, hs, _, rfl⟩
  refine (hitRateLimit ⟨"leave", rfl⟩ _ _).bind fun limited _ => ?_
  split
  . exact respondError _ _ _
  split
  . split
    . exact respondError _ _ _
    refine (hquit _).bind fun answer hanswer => ?_
    obtain ⟨text, rfl⟩ := hanswer
    exact respondError _ _ _
  . exact respondError _ _ _

theorem sendRoomHistory (d : Json) : TurnsDown sid (sendRoomHistory sid d) := by
  refine (hitRateLimit ⟨"room_history", rfl⟩ _ _).bind fun limited _ => ?_
  split
  . exact respondError _ _ _
  refine (resolveRoomForSession _).bind fun answer hanswer => ?_
  obtain ⟨text, rfl⟩ := hanswer
  exact respondError _ _ _

theorem createRoom (d : Json) : TurnsDown sid (createRoom sid d) := by
  refine (hitRateLimit ⟨"create_room", rfl⟩ _ _).bind fun limited _ => ?_
  split
  . exact respondError _ _ _
  refine sessionIdentity.bind fun actor hactor => ?_
  subst hactor
  exact respondError _ _ _

end Rooms

section Messages

theorem parseAttachment (raw : Option Json) : Inerts sid (fun _ => True) (parseAttachment raw) := by
  unfold Lqxp.parseAttachment
  split
  . split
    . exact .pure trivial
    refine (storeUploadedBytes _ _ _).bind fun stored _ => ?_
    split
    . exact .pure trivial
    . exact .pure trivial
  . exact .pure trivial

theorem sendChatMessage (d : Json) : TurnsDown sid (sendChatMessage sid d) := by
  have hpass (roomId : String) (now : Nat)
      : Inerts sid (fun answer => ∃ text, answer = .error text) (admitSender sid roomId now) := by
    refine atom fun e s hs => ?_
    split
    . exact ⟨⟨by simp [Label.queued], .refl sid _ s⟩, hs, _, rfl⟩
    next player hplayer =>
      dsimp only
      rw [if_pos (hs.session player hplayer).2.1]
      exact ⟨⟨by simp [Label.queued], .refl sid _ s⟩, hs, _, rfl⟩
  unfold Lqxp.sendChatMessage
  dsimp only
  split
  . exact respondError _ _ _
  refine (parseAttachment _).bind fun attachment _ => ?_
  split
  . exact respondError _ _ _
  split
  . exact respondError _ _ _
  refine (hitRateLimit ⟨"chat", rfl⟩ _ _).bind fun limited _ => ?_
  split
  . exact respondError _ _ _
  refine nowMs.bind fun now _ => (hpass _ _).bind fun answer hanswer => ?_
  obtain ⟨text, rfl⟩ := hanswer
  exact respondError _ _ _

theorem toggleMessageReaction (d : Json) : TurnsDown sid (toggleMessageReaction sid d) := by
  refine (hitRateLimit ⟨"reaction", rfl⟩ _ _).bind fun limited _ => ?_
  split
  . exact respondError _ _ _
  split
  . split
    . split
      . refine identifiedPlayer.bind fun player hplayer => ?_
        subst hplayer
        exact respondError _ _ _
      . exact respondError _ _ _
    . exact respondError _ _ _
  . exact respondError _ _ _

theorem deleteMessage (d : Json) : TurnsDown sid (deleteMessage sid d) := by
  refine (hitRateLimit ⟨"delete_message", rfl⟩ _ _).bind fun limited _ => ?_
  split
  . exact respondError _ _ _
  split
  . refine identifiedPlayer.bind fun player hplayer => ?_
    subst hplayer
    exact respondError _ _ _
  . exact respondError _ _ _

theorem editMessage (d : Json) : TurnsDown sid (editMessage sid d) := by
  refine (hitRateLimit ⟨"edit_message", rfl⟩ _ _).bind fun limited _ => ?_
  split
  . exact respondError _ _ _
  split
  . split
    . exact respondError _ _ _
    dsimp only
    split
    . exact respondError _ _ _
    split
    . exact respondError _ _ _
    refine identifiedPlayer.bind fun player hplayer => ?_
    subst hplayer
    exact respondError _ _ _
  . exact respondError _ _ _

theorem requestLinkPreview (d : Json) : TurnsDown sid (requestLinkPreview sid d) := by
  unfold Lqxp.requestLinkPreview
  dsimp only
  split
  . split
    . exact respondError _ _ _
    split
    . split
      . split
        . refine identifiedPlayer.bind fun player hplayer => ?_
          subst hplayer
          exact respondError _ _ _
        . exact respondError _ _ _
      . exact respondError _ _ _
    . exact respondError _ _ _
  . exact respondError _ _ _

end Messages

section Calls

theorem refused {f : Env → AppState → Except String α} (hf : ∀ e s, s.Blank sid → ∃ text, f e s = .error text)
    : Inerts sid (fun answer => ∃ text, answer = .error text) (Lqxp.look f) := by
  refine (look f).mono ?_
  rintro answer ⟨e, s, hs, rfl⟩
  exact hf e s hs

theorem callsSwitchedOff (isVoiceChat : Bool) : Inerts sid (fun _ => True) (callsSwitchedOff isVoiceChat) := by
  unfold Lqxp.callsSwitchedOff
  split
  . exact (look _).bind fun _ _ => .pure trivial
  . exact .pure trivial

theorem setCall_frame (isVoiceChat camera screen : Bool) (callRoom : Option String) (player : PlayerSession)
    : (player.setCall isVoiceChat camera screen callRoom).userId = player.userId
        ∧ (player.setCall isVoiceChat camera screen callRoom).username = player.username
        ∧ (player.setCall isVoiceChat camera screen callRoom).rooms = player.rooms := by
  unfold PlayerSession.setCall
  split
  . exact ⟨rfl, rfl, rfl⟩
  . exact ⟨rfl, rfl, rfl⟩

theorem setVoice (isVoiceChat camera screen : Bool) (callRoom : Option String)
    : Inerts sid (fun answer => ∀ player rooms stale, answer = .ok (player, rooms, stale) → rooms = [] ∧ stale = [])
        (setVoice sid isVoiceChat camera screen callRoom) := by
  refine atom fun e s hs => ?_
  split
  . exact ⟨⟨by simp [Label.queued], .refl sid _ s⟩, hs, fun _ _ _ h => by contradiction⟩
  next player hplayer =>
    obtain ⟨huserId, -, hrooms⟩ := hs.session player hplayer
    have hevicts : (isVoiceChat && decide (player.userId ≠ "")) = false := by simp [huserId]
    simp only [hevicts, Bool.false_eq_true, if_false]
    split
    . exact ⟨⟨by simp [Label.queued], .refl sid _ s⟩, hs, fun _ _ _ h => by contradiction⟩
    cases callRoom with
    | some room =>
      simp only [setCallIn, hrooms, List.contains_nil, Bool.false_eq_true, if_false]
      exact ⟨⟨by simp [Label.queued], .refl sid _ s⟩, hs, fun _ _ _ h => by contradiction⟩
    | none =>
      simp only [setCallIn, hrooms]
      refine ⟨⟨by simp [Label.queued], .modify rfl⟩, hs.modify (setCall_frame _ _ _ _) rfl, ?_⟩
      intro player' rooms stale h
      obtain ⟨-, rfl, rfl⟩ := by simpa [Except.map] using h
      exact ⟨rfl, rfl⟩

theorem updateVoiceChat (d : Json) : TurnsDown sid (updateVoiceChat sid d) := by
  have hcomplete (isVoiceChat camera screen : Bool) (callRoom reqId : Option String)
      : TurnsDown sid (completeVoice sid isVoiceChat camera screen callRoom reqId) := by
    refine (setVoice _ _ _ _).bind fun answer hanswer => ?_
    split
    . exact respondError _ _ _
    next player rooms stale =>
      obtain ⟨rfl, rfl⟩ := hanswer player rooms stale rfl
      exact respondOk _ _ (by decide)
  have haccount : Inerts sid (fun x : String × Bool => x.1 = "") (Lqxp.look fun _ s =>
      ((s.players.lookup sid).map fun player => (player.userId, player.isVoiceChat)).getD ("", false)) := by
    refine (look _).mono ?_
    rintro x ⟨e, s, hs, rfl⟩
    cases hplayer : s.players.lookup sid with
    | none => rfl
    | some player => exact (hs.session player hplayer).1
  refine (hitRateLimit ⟨"voice_chat", rfl⟩ _ _).bind fun limited _ => ?_
  split
  . exact respondError _ _ _
  refine (callsSwitchedOff _).bind fun off _ => ?_
  split
  . exact respondError _ _ _
  refine haccount.bind fun account haccount => ?_
  obtain ⟨userId, alreadyInVoice⟩ := account
  obtain rfl : userId = "" := haccount
  refine bind (Q := fun _ => True) ?_ fun hit _ => ?_
  . unfold hitVoiceJoin
    split
    . exact hitRateLimit ⟨"voice_join", rfl⟩ _ _
    . exact .pure trivial
  split
  . exact respondError _ _ _
  split
  . refine bind (Q := fun _ => True) ?_ fun refused _ => ?_
    . unfold voiceRefused
      split
      . refine (roomRecord _).bind fun room _ => ?_
        split
        . exact (look _).bind fun _ _ => .pure trivial
        . exact .pure trivial
      . exact .pure trivial
    split
    . exact respondError _ _ _
    . exact hcomplete _ _ _ _ _
  . refine bind (Q := fun _ => True) ?_ fun _ _ => hcomplete _ _ _ _ _
    unfold closeCallAccess
    split
    . refine (roomRecord _).bind fun room hroom => ?_
      split
      next room =>
        rw [if_neg (by simp [hroom room rfl])]
        exact .pure trivial
      next => exact .pure trivial
    . exact .pure trivial

theorem updateCallMediaState (d : Json) : TurnsDown sid (updateCallMediaState sid d) := by
  have hset (isVoiceChat camera screen : Bool) (callRoom : Option String)
      : Inerts sid (fun answer => ∃ text, answer = .error text) (setCallMedia sid isVoiceChat camera screen callRoom) := by
    refine atom fun e s hs => ?_
    split
    . exact ⟨⟨by simp [Label.queued], .refl sid _ s⟩, hs, _, rfl⟩
    next player hplayer =>
      dsimp only
      rw [if_pos (hs.session player hplayer).2.1]
      exact ⟨⟨by simp [Label.queued], .refl sid _ s⟩, hs, _, rfl⟩
  refine (hitRateLimit ⟨"call_media", rfl⟩ _ _).bind fun limited _ => ?_
  split
  . exact respondError _ _ _
  refine (callsSwitchedOff _).bind fun off _ => ?_
  split
  . exact respondError _ _ _
  refine (hset _ _ _ _).bind fun answer hanswer => ?_
  obtain ⟨text, rfl⟩ := hanswer
  exact respondError _ _ _

theorem updateCallDeafenedState (d : Json) : TurnsDown sid (updateCallDeafenedState sid d) := by
  have hset (gameId : String) (isDeafened : Bool)
      : Inerts sid (fun answer => ∃ text, answer = .error text) (setDeafened sid gameId isDeafened) := by
    refine atom fun e s hs => ?_
    split
    . exact ⟨⟨by simp [Label.queued], .refl sid _ s⟩, hs, _, rfl⟩
    next player hplayer =>
      rw [if_pos (hs.session player hplayer).2.1]
      exact ⟨⟨by simp [Label.queued], .refl sid _ s⟩, hs, _, rfl⟩
  unfold Lqxp.updateCallDeafenedState
  dsimp only
  split
  . split
    . exact respondError _ _ _
    refine (hset _ _).bind fun answer hanswer => ?_
    obtain ⟨text, rfl⟩ := hanswer
    exact respondError _ _ _
  . exact respondError _ _ _

end Calls

section Signals

theorem reportKill (d : Json) : TurnsDown sid (reportKill sid d) := by
  have hmember (gameId : String) : Inerts sid (· = false) (isMember sid gameId) := by
    refine (look _).mono ?_
    rintro x ⟨e, s, hs, rfl⟩
    cases hplayer : s.players.lookup sid with
    | none => rfl
    | some player => simp [(hs.session player hplayer).2.2]
  refine (hitRateLimit ⟨"report_kill", rfl⟩ _ _).bind fun limited _ => ?_
  split
  . exact respondError _ _ _
  split
  . split
    . split
      . exact respondError _ _ _
      split
      . refine (hmember _).bind fun isMember hmember => ?_
        subst hmember
        exact respondError _ _ _
      . exact respondError _ _ _
    . exact respondError _ _ _
  . exact respondError _ _ _

theorem relayCallSignal (d : Json) : TurnsDown sid (relayCallSignal sid d) := by
  refine (hitRateLimit ⟨"call_signal", rfl⟩ _ _).bind fun limited _ => ?_
  split
  . exact respondError _ _ _
  refine (look _).bind fun enabled _ => ?_
  split
  . exact respondError _ _ _
  split
  . split
    . exact respondError _ _ _
    split
    . dsimp only
      split
      . exact respondError _ _ _
      refine (refused fun e s hs => ?_).bind fun answer hanswer => ?_
      . split
        . exact ⟨_, rfl⟩
        next player hplayer => exact ⟨_, if_pos (by simp [(hs.session player hplayer).2.2])⟩
      . obtain ⟨text, rfl⟩ := hanswer
        exact respondError _ _ _
    . exact respondError _ _ _
  . exact respondError _ _ _

theorem relayRoomSignal (d : Json) : TurnsDown sid (relayRoomSignal sid d) := by
  refine (hitRateLimit ⟨"room_signal", rfl⟩ _ _).bind fun limited _ => ?_
  split
  . exact respondError _ _ _
  split
  . split
    . split
      . exact respondError _ _ _
      refine (refused fun e s hs => ?_).bind fun answer hanswer => ?_
      . split
        . exact ⟨_, rfl⟩
        next player hplayer => exact ⟨_, if_pos (by simp [(hs.session player hplayer).2.1])⟩
      . obtain ⟨text, rfl⟩ := hanswer
        exact respondError _ _ _
    . exact respondError _ _ _
  . exact respondError _ _ _

theorem updateTypingState (d : Json) : TurnsDown sid (updateTypingState sid d) := by
  refine (hitRateLimit ⟨"typing", rfl⟩ _ _).bind fun limited _ => ?_
  split
  . exact .pure rfl
  refine (resolveRoomForSession _).bind fun answer hanswer => ?_
  obtain ⟨text, rfl⟩ := hanswer
  exact respondError _ _ _

theorem updateMuteState (d : Json) : TurnsDown sid (updateMuteState sid d) := by
  have hset (username : String) (isMuted : Bool)
      : Inerts sid (fun answer => ∃ text, answer = .error text) (setMuted sid username isMuted) := by
    refine atom fun e s hs => ?_
    split
    . exact ⟨⟨by simp [Label.queued], .refl sid _ s⟩, hs, _, rfl⟩
    next player hplayer =>
      rw [if_pos (hs.session player hplayer).2.1]
      exact ⟨⟨by simp [Label.queued], .refl sid _ s⟩, hs, _, rfl⟩
  unfold Lqxp.updateMuteState
  split
  . dsimp only
    split
    . exact respondError _ _ _
    split
    . refine (hset _ _).bind fun answer hanswer => ?_
      obtain ⟨text, rfl⟩ := hanswer
      exact respondError _ _ _
    . exact respondError _ _ _
  . exact respondError _ _ _

theorem sessionIsAdmin : Inerts sid (· = false) (sessionIsAdmin sid) := by
  refine (look _).mono ?_
  rintro x ⟨e, s, hs, rfl⟩
  cases hplayer : s.players.lookup sid with
  | none => rfl
  | some player => simp [(hs.session player hplayer).2.1]

theorem adminStatus (d : Json) : TurnsDown sid (adminStatus sid d) := by
  refine sessionIsAdmin.bind fun isAdmin hadmin => ?_
  subst hadmin
  exact respondError _ _ _

theorem adminBroadcast (d : Json) : TurnsDown sid (adminBroadcast sid d) := by
  refine sessionIsAdmin.bind fun isAdmin hadmin => ?_
  subst hadmin
  exact respondError _ _ _

theorem statsQuery (d : Json) : TurnsDown sid (statsQuery sid d) := by
  refine (hitRateLimit ⟨"stats_query", rfl⟩ _ _).bind fun limited _ => ?_
  split
  . exact respondError _ _ _
  refine bind (Q := fun answer => ∃ text, answer = .error text) ?_ fun answer hanswer => ?_
  . unfold statsRoom
    split
    . refine (resolveRoomForSession _).bind fun answer hanswer => ?_
      obtain ⟨text, rfl⟩ := hanswer
      exact .pure ⟨_, rfl⟩
    . refine refused fun e s hs => ?_
      split
      next player hplayer => exact ⟨_, if_neg (by simp [(hs.session player hplayer).2.1])⟩
      next => exact ⟨_, rfl⟩
  . obtain ⟨text, rfl⟩ := hanswer
    exact respondError _ _ _

theorem relayCloudSyncOp (d : Json) : TurnsDown sid (relayCloudSyncOp sid d) := by
  refine (hitRateLimit ⟨"cloud_sync", rfl⟩ _ _).bind fun limited _ => ?_
  split
  . exact respondError _ _ _
  split
  . split
    . exact respondError _ _ _
    refine (refused fun e s hs => ?_).bind fun answer hanswer => ?_
    . split
      . exact ⟨_, rfl⟩
      next player hplayer => exact ⟨_, if_pos (by simp [(hs.session player hplayer).2.1])⟩
    . obtain ⟨text, rfl⟩ := hanswer
      exact respondError _ _ _
  . exact respondError _ _ _

theorem syncPeersOp (d : Json) : TurnsDown sid (syncPeersOp sid d) := by
  refine (hitRateLimit ⟨"sync_peers", rfl⟩ _ _).bind fun limited _ => ?_
  split
  . exact respondError _ _ _
  refine (refused fun e s hs => ?_).bind fun answer hanswer => ?_
  . split
    . exact ⟨_, rfl⟩
    next player hplayer => exact ⟨_, if_pos (by simp [(hs.session player hplayer).2.1])⟩
  . obtain ⟨text, rfl⟩ := hanswer
    exact respondError _ _ _

end Signals

section Settings

theorem parseUserProfile (current : UserProfile) (raw : Option Json)
    : Inerts sid (fun _ => True) (parseUserProfile current raw) := by
  have himage (raw : Json) (key : String) (maxBytes : Nat) (current : Option ProfileImage)
      : Inerts sid (fun _ => True) (parseImageField raw key maxBytes current) := by
    unfold parseImageField
    split
    . unfold parseProfileImage
      split
      . split
        . exact .pure trivial
        refine (storeUploadedBytes _ _ _).bind fun file _ => ?_
        split
        . exact .pure trivial
        . exact .pure trivial
      . exact .pure trivial
    . exact .pure trivial
  unfold Lqxp.parseUserProfile
  split
  . split
    . exact .pure trivial
    split
    . exact .pure trivial
    refine (himage _ _ _ _).bind fun avatar _ => ?_
    split
    . exact .pure trivial
    refine (himage _ _ _ _).bind fun banner _ => ?_
    split
    . exact .pure trivial
    split
    . exact .pure trivial
    . exact .pure trivial
  . exact .pure trivial

theorem applySettings_frame (d : Json) (profile : Option UserProfile) (status : Option UserPresenceStatus)
    (player : PlayerSession)
    : (player.applySettings d profile status).userId = player.userId
        ∧ (player.applySettings d profile status).username = player.username
        ∧ (player.applySettings d profile status).rooms = player.rooms := by
  unfold PlayerSession.applySettings
  dsimp only
  split
  . exact ⟨rfl, rfl, rfl⟩
  . exact ⟨rfl, rfl, rfl⟩

theorem changeSettings (d : Json) (profile : Option UserProfile) (status : Option UserPresenceStatus)
    : Inerts sid (fun changed => ∀ old player, changed = some (old, player) → player.userId = "" ∧ player.rooms = [])
        (changeSettings sid d profile status) := by
  refine atom fun e s hs => ?_
  split
  . exact ⟨⟨by simp [Label.queued], .refl sid _ s⟩, hs, fun _ _ h => by contradiction⟩
  next old hold =>
    obtain ⟨huserId, husername, hrooms⟩ := applySettings_frame d profile status old
    refine ⟨⟨by simp [Label.queued], .modify rfl⟩, hs.modify (applySettings_frame d profile status) rfl, ?_⟩
    intro old' player h
    obtain ⟨rfl, rfl⟩ := by simpa using h
    rw [huserId, hrooms]
    exact ⟨(hs.session _ hold).1, (hs.session _ hold).2.2⟩

theorem updateClientSettings (d : Json) : TurnsDown sid (updateClientSettings sid d) := by
  have hprofile (profile : UserProfile) : Inerts sid (fun _ => True) (updateProfile "" profile) := by
    refine atom fun e s hs => ?_
    split
    . exact ⟨⟨by simp [Label.queued], .refl sid _ s⟩, hs, trivial⟩
    . exact ⟨⟨by simp [Label.queued], .updateUser rfl⟩, hs.frame rfl rfl, trivial⟩
  have hstatus (status : UserPresenceStatus) : Inerts sid (fun _ => True) (updateStatus "" status) := by
    refine atom fun e s hs => ?_
    split
    . exact ⟨⟨by simp [Label.queued], .refl sid _ s⟩, hs, trivial⟩
    . exact ⟨⟨by simp [Label.queued], .updateUser rfl⟩, hs.frame rfl rfl, trivial⟩
  have hpeer (event clientId platform : String) (exclude : Option String)
      : Inerts sid (fun _ => True) (broadcastSyncPeerEvent "" event clientId platform exclude) := .pure trivial
  refine (hitRateLimit ⟨"settings", rfl⟩ _ _).bind fun limited _ => ?_
  split
  . exact respondError _ _ _
  refine (look _).bind fun current _ => (parseUserProfile _ _).bind fun parsed _ => ?_
  split
  . exact respondError _ _ _
  refine (changeSettings _ _ _).bind fun changed hchanged => ?_
  split
  . exact respondError _ _ _
  next old player =>
    obtain ⟨huserId, hrooms⟩ := hchanged old player rfl
    unfold completeSettings persistProfile persistStatus announceSyncPeer
    simp only [huserId, hrooms, ite_self]
    refine bind (Q := fun _ => True) ?_ fun _ _ => bind (Q := fun _ => True) ?_ fun _ _ => ?_
    . split
      . exact (hprofile _).bind fun _ _ => .pure trivial
      . exact .pure trivial
    . split
      . exact (hstatus _).bind fun _ _ => .pure trivial
      . exact .pure trivial
    refine (respondOk _ _ (by decide)).bind fun _ _ => ?_
    refine bind (Q := fun _ => True) (.pure trivial) fun _ _ => bind (Q := fun _ => True) (.pure trivial) fun _ _ => ?_
    refine bind (Q := fun _ => True) ?_ fun _ _ => .pure rfl
    split
    . exact hpeer _ _ _ _
    split
    . exact hpeer _ _ _ _
    . exact .pure trivial

end Settings

theorem protoHandler {op : Nat} {handler : String → Json → Proto Bool} (hhandler : protoHandler op = some handler)
    (hop : op ≠ 2) (d : Json) : TurnsDown sid (handler sid d) := by
  unfold Lqxp.protoHandler at hhandler
  split at hhandler
  all_goals first | contradiction | obtain rfl := Option.some.inj hhandler
  . exact joinGame d
  . exact leaveGame d
  . exact reportKill d
  . exact sendChatMessage d
  . exact updateClientSettings d
  . exact sendRoomHistory d
  . exact toggleMessageReaction d
  . exact deleteMessage d
  . exact requestLinkPreview d
  . exact editMessage d
  . exact updateTypingState d
  . exact changeRoom
  . exact changeRoom
  . exact createRoom d
  . exact communityRequest
  . exact communityRequest
  . exact communityRequest
  . exact communityRequest
  . exact communityRequest
  . exact communityRequest
  . exact communityRequest
  . exact communityRequest
  . exact communityRequest
  . exact communityRequest
  . exact communityRequest
  . exact communityRequest
  . exact relayRoomSignal d
  . exact communityRequest
  . exact relayCloudSyncOp d
  . exact syncPeersOp d
  . exact updateVoiceChat d
  . exact updateMuteState d
  . exact adminStatus d
  . exact adminBroadcast d
  . exact statsQuery d
  . exact updateCallMediaState d
  . exact relayCallSignal d
  . exact updateCallDeafenedState d

end Handlers

end Inerts

section Node

/--
A step of the whole server that others do not notice.
-/
structure NodeInert (sid : String) (now : Nat) (s : NodeState) (l : NodeLabel) (s' : NodeState) : Prop where
  queued : ∀ m ∈ l.queued, m.1 = sid ∧ IsRefusal m.2
  same : s.app.SameButFor sid now s'.app
  secrets : s'.profile.account.secrets = s.profile.account.secrets
  registerEnabled : s'.profile.account.registerEnabled = s.profile.account.registerEnabled
  publicProfileCache : s'.profile.publicProfileCache = s.profile.publicProfileCache
  pollTallies : s'.pollTallies = s.pollTallies
  tables : s'.tables = s.tables

abbrev NodeInerts (sid : String) (Q : α → Prop) (p : Node α) : Prop :=
  ∀ h, Prog.Abides (fun s : NodeState => s.app.Blank sid) (fun _ e s l s' => NodeInert sid e.now s l s') (fun a _ => Q a) p h

namespace NodeInerts

variable {n : Deployment} {Q : α → Prop} {R : β → Prop}

theorem pure {a : α} (ha : Q a) : NodeInerts sid Q (pure a) := fun _ => ha

theorem bind {p : Node α} {f : α → Node β} (hp : NodeInerts sid Q p) (hf : ∀ a, Q a → NodeInerts sid R (f a))
    : NodeInerts sid R (p >>= f) :=
  fun h => (hp h).bind fun a h' _ ha => hf a ha h'

theorem onSocket {p : Proto α} (hp : Inerts sid Q p) : NodeInerts sid Q (Lqxp.onSocket sid p) := by
  suffices hall : ∀ h₀ h, Prog.Abides (·.Blank sid) (fun _ e s l s' => Inert sid e.now s l s') (fun a _ => Q a) p h₀ →
      Prog.Abides (fun s : NodeState => s.app.Blank sid) (fun _ e s l s' => NodeInert sid e.now s l s') (fun a _ => Q a)
        (Lqxp.onSocket sid p) h from fun h => hall [] h (hp [])
  clear hp
  induction p with
  | done a => exact fun _ _ ha => ha
  | step act rest ih =>
    intro h₀ h hp e s hs
    obtain ⟨hok, hkept, hrest⟩ := hp e.toEnv s.app hs
    exact ⟨⟨hok.queued, hok.same, rfl, rfl, rfl, rfl, rfl⟩, hkept, ih _ _ _ _ hrest⟩

theorem sendJson {payload : Json} (hpayload : IsRefusal payload) : NodeInerts sid (fun _ => True) (sendJson sid payload) := by
  refine fun h => Prog.Abides.atom fun e s hs => ⟨⟨fun m hm => ?_, .refl sid _ _, rfl, rfl, rfl, rfl, rfl⟩, hs, trivial⟩
  obtain rfl := List.mem_singleton.1 hm
  exact ⟨rfl, hpayload⟩

theorem respondError (op : Nat) (text : String) (reqId : Option String)
    : NodeInerts sid (· = false) (Lqxp.onSocket sid (Lqxp.respondError sid op text reqId)) :=
  onSocket (.respondError op text reqId)

theorem requestPublicProfiles (x : Externals) (d : Json)
    : NodeInerts sid (· = false) (onProfiles (requestPublicProfiles x sid d)) := by
  have htrim : Text.trim "" = "" := rfl
  rw [onProfiles, Lqxp.requestPublicProfiles, Prog.zoom_bind]
  refine bind (onSocket Inerts.getPlayer) fun player hplayer => ?_
  have hnone : (player.filter fun player => Text.trim player.userId ≠ "") = none := by
    cases player with
    | none => rfl
    | some p => simp [Option.filter, (hplayer p rfl).1, htrim]
  simp only [hnone]
  exact respondError _ _ _

theorem sessionUserId : NodeInerts sid (· = none) (Lqxp.onSocket sid (Phantom.sessionUserId sid)) := by
  have htrim : Text.trim "" = "" := rfl
  refine onSocket (Inerts.getPlayer.bind fun player hplayer => .pure ?_)
  cases player with
  | none => rfl
  | some p => simp [Option.filter, (hplayer p rfl).1, htrim]

theorem outcomeOf {p : Node Bool} (hp : NodeInerts sid (· = false) p)
    : NodeInerts sid (· = .goesOn) (Lqxp.outcomeOf p) := by
  refine hp.bind fun closed hclosed => ?_
  subst hclosed
  exact .pure rfl

theorem publishPrekeyOp (v : DeviceSignatures) (d : Json)
    : NodeInerts sid (· = .goesOn) (Phantom.publishPrekeyOp v sid d) := by
  refine sessionUserId.bind fun userId huserId => ?_
  subst huserId
  exact outcomeOf (respondError _ _ _)

theorem fetchPrekeyOp (x : Externals) (d : Json) : NodeInerts sid (· = false) (Phantom.fetchPrekeyOp x sid d) := by
  refine sessionUserId.bind fun userId huserId => ?_
  subst huserId
  exact respondError _ _ _

theorem blockUpdateOp (c : Crypto) (d : Json) : NodeInerts sid (· = .goesOn) (Phantom.blockUpdateOp c sid d) := by
  refine sessionUserId.bind fun userId huserId => ?_
  subst huserId
  exact outcomeOf (respondError _ _ _)

section Polls

theorem onServer {p : Proto α} (hp : Inerts sid Q p) : NodeInerts sid Q (onPolls (onServer p)) := by
  suffices hall : ∀ h₀ h, Prog.Abides (·.Blank sid) (fun _ e s l s' => Inert sid e.now s l s') (fun a _ => Q a) p h₀ →
      Prog.Abides (fun s : NodeState => s.app.Blank sid) (fun _ e s l s' => NodeInert sid e.now s l s') (fun a _ => Q a)
        (onPolls (Lqxp.onServer p)) h from fun h => hall [] h (hp [])
  clear hp
  induction p with
  | done a => exact fun _ _ ha => ha
  | step act rest ih =>
    intro h₀ h hp e s hs
    obtain ⟨hok, hkept, hrest⟩ := hp e.toEnv s.app hs
    exact ⟨⟨hok.queued, hok.same, rfl, rfl, rfl, rfl, rfl⟩, hkept, ih _ _ _ _ hrest⟩

theorem votePoll (digest : List UInt8 → String) (salt : List UInt8) (d : Json)
    : NodeInerts sid (· = false) (onPolls (votePoll digest salt sid d)) := by
  have herror (text : String) (reqId : Option String)
      : NodeInerts sid (· = false) (onPolls (Lqxp.onServer (Lqxp.respondError sid 53 text reqId))) :=
    onServer (.respondError 53 text reqId)
  rw [onPolls, Lqxp.votePoll, Prog.zoom_bind]
  refine bind (onServer (.hitRateLimit ⟨"poll_vote", rfl⟩ _ _)) fun limited _ => ?_
  split
  . exact herror _ _
  split
  . dsimp only
    split
    . exact herror _ _
    rw [Prog.zoom_bind]
    refine bind (onServer .getPlayer) fun player hplayer => ?_
    have hnone : (player.filter fun player => player.userId ≠ "") = none := by
      cases player with
      | none => rfl
      | some p => simp [Option.filter, (hplayer p rfl).1]
    simp only [hnone]
    exact herror _ _
  . exact herror _ _

end Polls

section Gate

theorem perform (f : AccountEnv → AccountState → α)
    : NodeInerts sid (fun a => ∃ e s, s.app.Blank sid ∧ a = f e s)
        (onProfiles (onAccounts (perform fun e s => (f e s, .quiet)))) := by
  rw [onProfiles, onAccounts, Lqxp.perform, Prog.zoom_atom, Prog.zoom_atom]
  refine fun h => Prog.Abides.atom fun e s hs => ⟨⟨fun m hm => ?_, .refl sid _ _, rfl, rfl, rfl, rfl, rfl⟩, hs, ?_⟩
  . exact absurd hm List.not_mem_nil
  . exact ⟨e, s.profile.account, hs, rfl⟩

theorem passesGate (op : Nat) : NodeInerts sid (· = true) (passesGate sid op) := by
  unfold Lqxp.passesGate
  split
  . exact .pure rfl
  rw [onProfiles, onAccounts, revalidateSession, Prog.zoom_bind, Prog.zoom_bind]
  refine bind (perform _) fun now _ => ?_
  rw [Prog.zoom_bind, Prog.zoom_bind]
  refine bind (perform _) fun player hplayer => ?_
  obtain ⟨e, s, hs, rfl⟩ := hplayer
  split
  next player hplayer =>
    rw [if_pos (hs.session player hplayer).1]
    exact .pure rfl
  next => exact .pure rfl

end Gate

theorem directAnswer (payload : SocketPayload) : NodeInerts sid (· = false) (directAnswer n sid payload) := by
  unfold Lqxp.directAnswer
  split
  . exact (sendJson (.inr ⟨0, by decide, rfl⟩)).bind fun _ _ => .pure rfl
  . exact (sendJson (.inr ⟨1, by decide, get?_op_withRequestId ..⟩)).bind fun _ _ => .pure rfl
  . exact (sendJson (.inr ⟨6, by decide, get?_op_withRequestId ..⟩)).bind fun _ _ => .pure rfl
  . exact (sendJson (.inl rfl)).bind fun _ _ => .pure rfl

theorem runOp {payload : SocketPayload} (hop : payload.op ≠ 2)
    : NodeInerts sid (· = .goesOn) (runOp n sid payload) := by
  unfold Lqxp.runOp
  split
  . exact outcomeOf (requestPublicProfiles n.externals payload.d)
  . exact publishPrekeyOp n.signatures payload.d
  . exact outcomeOf (fetchPrekeyOp n.externals payload.d)
  . exact blockUpdateOp n.crypto payload.d
  . exact outcomeOf (votePoll n.pollDigest n.pollSalt payload.d)
  split
  next handler hhandler => exact outcomeOf (onSocket (.protoHandler hhandler hop payload.d))
  next => exact outcomeOf (directAnswer payload)

theorem processMessage {payload : Option SocketPayload} (hop : ∀ p, payload = some p → p.op ≠ 2)
    : NodeInerts sid (· = .goesOn) (processMessage n sid payload) := by
  cases payload with
  | none => exact .pure rfl
  | some payload =>
    refine (passesGate payload.op).bind fun passed hpassed => ?_
    subst hpassed
    exact runOp (hop payload rfl)

end NodeInerts

/--
Whatever comes over a connection that has not said who it is: as long as the others leave it at that, none of them
notices anything, and nothing of theirs changes. The connection stays open.
-/
theorem strangers_inert (n : Deployment) {sid : String} {payload : Option SocketPayload} {s s' : NodeState}
    {tr : List (AccountEnv × Prog.Move NodeState NodeLabel)} {outcome : Outcome}
    (run : Prog.Amid (fun s s' => s.app.Blank sid → s'.app.Blank sid) (processMessage n sid payload).recorded s tr outcome s')
    (hs : s.app.Blank sid) (hop : ∀ p, payload = some p → p.op ≠ 2)
    : outcome = .goesOn ∧ s'.app.Blank sid ∧ ∀ x ∈ tr, NodeInert sid x.1.now x.2.before x.2.label x.2.after := by
  obtain ⟨hblank, houtcome, hall⟩ :=
    Prog.Abides.of_amid (fun _ _ hkept => hkept) (NodeInerts.processMessage (n := n) hop []) run hs
  refine ⟨houtcome, hblank, fun x hx => ?_⟩
  obtain ⟨tr₁, tr₂, rfl⟩ := List.append_of_mem hx
  exact hall tr₁ x tr₂ rfl

section Example

def eveConnected : NodeState :=
  let players : AssocMap String PlayerSession := ∅
  let ada := { id := "ada", userId := "1", username := "ada", rooms := ["gathering"] }
  { profile := { account := { app := { players := (players.insert "ada" ada).insert "eve" { id := "eve" } } } } }

def eveWrites : SocketPayload := { op := 7, d := .obj [("gameId", .str "gathering"), ("text", .str "hello")] }

theorem strangers_inert_eve
    : let tr := (Prog.play .calm (processMessage laxDeployment "eve" (some eveWrites)).recorded eveConnected).1
      (tr.flatMap fun x => x.2.label.queued).map (·.1) = ["eve"]
        ∧ ∀ x ∈ tr, NodeInert "eve" x.1.now x.2.before x.2.label x.2.after := by
  have hblank : eveConnected.app.Blank "eve" := by
    refine ⟨fun player hplayer => ?_, fun roomId room hroom => ?_⟩
    . obtain rfl := Option.some.inj hplayer
      exact ⟨rfl, rfl, rfl⟩
    . contradiction
  have hrun : Prog.Amid (fun s s' : NodeState => s.app.Blank "eve" → s'.app.Blank "eve")
      (processMessage laxDeployment "eve" (some eveWrites)).recorded eveConnected _ _ _ :=
    (Prog.trace_play .calm _ eveConnected).amid fun _ hs => hs
  have hop (p : SocketPayload) (hp : some eveWrites = some p) : p.op ≠ 2 := by
    obtain rfl := Option.some.inj hp
    decide
  exact ⟨by decide, (strangers_inert laxDeployment hrun hblank hop).2.2⟩

end Example

end Node

end Lqxp
