import Lqxp.Prog.Emits
import Lqxp.Websocket.Protocol.Lemmas.Presence

/-!
This module contains what identifying and joining do in an uninterrupted run.
-/

namespace Lqxp

section Authentication

def identifyToken (d : Json) : Option String :=
  ((((d.get? "token").or (d.get? "authToken")).bind Json.asStr?).map Text.trim).filter (· ≠ "")

/--
The user whose token a request carries, as long as the account may be used. When the token expires is left open,
but a token that expires at once is none.
-/
def AppState.identifiedUser (s : AppState) (d : Json) : Option StoredUser := do
  let token ← identifyToken d
  let row ← (s.accounts.sessions.lookup (s.accounts.tokenHash token)).filter (0 < ·.expiresAt)
  (s.accounts.users.lookup row.userId).filter fun user => !user.disabled && !user.banned

variable {s s' : AppState} {tr : List (Env × Label)}

theorem trace_sessionUserId {token : String} {answer : Option (Option String)}
    (h : Prog.Trace (sessionUserId token) s tr answer s')
    : queued tr = [] ∧ s' = s ∧ ∀ userId, answer = some (some userId) → ∃ row,
        s.accounts.sessions.lookup (s.accounts.tokenHash token) = some row ∧ 0 < row.expiresAt
          ∧ row.userId = userId := by
  obtain ⟨e, rfl, rfl, rfl⟩ := Prog.trace_atom_iff.1 h
  split
  . exact ⟨rfl, rfl, fun _ h => by simp at h⟩
  . dsimp only
    split
    next row hrow =>
      split
      next hexpires =>
        exact ⟨rfl, rfl, fun userId huser => ⟨row, hrow, Nat.zero_lt_of_lt hexpires, by simpa using huser⟩⟩
      . exact ⟨rfl, rfl, fun _ h => by simp at h⟩
    next => exact ⟨rfl, rfl, fun _ h => by simp at h⟩

theorem trace_userById {userId : String} {answer : Option (Option AuthenticatedUser)}
    (h : Prog.Trace (userById userId) s tr answer s')
    : queued tr = [] ∧ s' = s ∧ ∀ account, answer = some (some account) → ∃ user,
        s.accounts.users.lookup userId = some user ∧ account = s.accounts.authenticatedUser user := by
  obtain ⟨e, rfl, rfl, rfl⟩ := Prog.trace_atom_iff.1 h
  split
  . exact ⟨rfl, rfl, fun _ h => by simp at h⟩
  . split
    next user huser =>
      refine ⟨?_, rfl, fun account haccount => ⟨user, huser, by simpa using haccount.symm⟩⟩
      dsimp only
      split <;> rfl
    next => exact ⟨rfl, rfl, fun _ h => by simp at h⟩

theorem trace_authenticateToken {token : String} {answer : Option (Option AuthenticatedUser)}
    (h : Prog.Trace (authenticateToken token) s tr answer s')
    : queued tr = [] ∧ s' = s ∧ ∀ account, answer = some (some account) → ∃ row user,
        s.accounts.sessions.lookup (s.accounts.tokenHash token) = some row ∧ 0 < row.expiresAt
          ∧ s.accounts.users.lookup row.userId = some user ∧ user.disabled = false ∧ user.banned = false
          ∧ account = s.accounts.authenticatedUser user := by
  obtain ⟨session, s₁, tr₁, tr₂, hsession, hrest, rfl⟩ := Prog.trace_bind_iff.1 h
  obtain ⟨hquiet₁, rfl, hanswer⟩ := trace_sessionUserId hsession
  split at hrest
  . obtain ⟨rfl, rfl, rfl⟩ := Prog.trace_done_iff.1 hrest
    exact ⟨by simpa using hquiet₁, rfl, fun _ h => by simp at h⟩
  . obtain ⟨rfl, rfl, rfl⟩ := Prog.trace_done_iff.1 hrest
    exact ⟨by simpa using hquiet₁, rfl, fun _ h => by simp at h⟩
  next userId =>
    obtain ⟨row, hrow, hexpires, rfl⟩ := hanswer userId rfl
    obtain ⟨answer', s₂, tr₃, tr₄, hlookup, hlast, rfl⟩ := Prog.trace_bind_iff.1 hrest
    obtain ⟨hquiet₂, rfl, hanswer⟩ := trace_userById hlookup
    split at hlast
    . obtain ⟨rfl, rfl, rfl⟩ := Prog.trace_done_iff.1 hlast
      exact ⟨by simp [hquiet₁, hquiet₂], rfl, fun _ h => by simp at h⟩
    . obtain ⟨rfl, rfl, rfl⟩ := Prog.trace_done_iff.1 hlast
      exact ⟨by simp [hquiet₁, hquiet₂], rfl, fun _ h => by simp at h⟩
    next account =>
      obtain ⟨user, huser, rfl⟩ := hanswer account rfl
      split at hlast
      . obtain ⟨rfl, rfl, rfl⟩ := Prog.trace_done_iff.1 hlast
        exact ⟨by simp [hquiet₁, hquiet₂], rfl, fun _ h => by simp at h⟩
      next hactive =>
        obtain ⟨rfl, rfl, rfl⟩ := Prog.trace_done_iff.1 hlast
        refine ⟨by simp [hquiet₁, hquiet₂], rfl, fun account haccount => ?_⟩
        obtain ⟨hdisabled, hbanned⟩ : user.disabled = false ∧ user.banned = false := by
          simpa [AccountDatabase.authenticatedUser] using hactive
        exact ⟨row, user, hrow, hexpires, huser, hdisabled, hbanned, by simpa using haccount.symm⟩

end Authentication

section Identify

variable {s s' : AppState} {sid : String} {d : Json} {tr : List (Env × Label)} {b : Bool}

def AppState.identified (s : AppState) (d : Json) (user : StoredUser) (now : Nat) (player : PlayerSession)
    : PlayerSession :=
  player.identifyAs (s.accounts.authenticatedUser user)
    ((MovesPlayers.requestedStatus d).getD user.status) d now

/--
What identifying does: nothing but reply to the session, or bind it and announce a new client id.
-/
inductive IdentifyOutcome (s : AppState) (sid : String) (d : Json) (tr : List (Env × Label)) (s' : AppState)
    : Prop where
  | refused (hplayers : s'.players = s.players) (hqueued : ∀ m ∈ queued tr, m.1 = sid)
  | bound (user : StoredUser) (player : PlayerSession) (e : Env) (replies : List (String × Json))
      (huser : s.identifiedUser d = some user)
      (hplayer : s.players.lookup sid = some player)
      (hlabel : (e, .bound sid user.id) ∈ tr)
      (hplayers : s'.players = s.players.modify sid (s.identified d user e.now))
      (hreplies : ∀ m ∈ replies, m.1 = sid)
      (hqueued : queued tr = replies ++
        let now := s.identified d user e.now player
        if now.clientId ≠ "" && player.clientId ≠ now.clientId then
          s'.syncMessages user.id "join" now.clientId now.platform (some sid)
        else
          [])

theorem trace_updateStatus {userId : String} {status : UserPresenceStatus} {stored : Bool}
    (h : Prog.Trace (updateStatus userId status) s tr stored s')
    : queued tr = [] ∧ s'.players = s.players := by
  obtain ⟨e, rfl, rfl, rfl⟩ := Prog.trace_atom_iff.1 h
  split
  . exact ⟨rfl, rfl⟩
  . exact ⟨rfl, rfl⟩

theorem trace_reply {payload : Json} {u : Unit} (h : Prog.Trace (respondToSender sid payload) s tr u s')
    : (∀ m ∈ queued tr, m.1 = sid) ∧ s' = s := by
  obtain ⟨e, rfl, rfl⟩ := trace_respondToSender h
  refine ⟨fun m hm => ?_, rfl⟩
  rw [queued_cons, queued_nil, List.append_nil] at hm
  exact congrArg Prod.fst (AppState.mem_queued_replyLabel hm)

theorem trace_announceJoin {c : Prop} [Decidable c] {userId clientId platform : String}
    (h : Prog.Trace (if c then do
        broadcastSyncPeerEvent userId "join" clientId platform (some sid)
        return false
      else
        return false) s tr b s')
    : queued tr = (if c then s.syncMessages userId "join" clientId platform (some sid) else []) ∧ s' = s := by
  split at h
  next hc =>
    obtain ⟨u, s₁, tr₁, tr₂, hsync, hdone, rfl⟩ := Prog.trace_bind_iff.1 h
    obtain ⟨rfl, -, rfl⟩ := Prog.trace_done_iff.1 hdone
    obtain ⟨hqueued, rfl⟩ := trace_broadcastSyncPeerEvent hsync
    rw [List.append_nil, hqueued, if_pos hc]
    exact ⟨rfl, rfl⟩
  next hc =>
    obtain ⟨rfl, -, rfl⟩ := Prog.trace_done_iff.1 h
    rw [if_neg hc]
    exact ⟨rfl, rfl⟩

theorem trace_completeIdentify {account : AuthenticatedUser} {status : UserPresenceStatus}
    {reqId : Option String} (h : Prog.Trace (completeIdentify sid d account status reqId) s tr b s')
    : s.players.lookup sid = none ∧ queued tr = [] ∧ s' = s
      ∨ ∃ player e replies, s.players.lookup sid = some player ∧ (e, .bound sid account.id) ∈ tr
        ∧ s'.players = s.players.modify sid (.identifyAs account status d e.now)
        ∧ (∀ m ∈ replies, m.1 = sid)
        ∧ queued tr = replies ++
          let now := player.identifyAs account status d e.now
          if now.clientId ≠ "" && player.clientId ≠ now.clientId then
            s'.syncMessages account.id "join" now.clientId now.platform (some sid)
          else
            [] := by
  obtain ⟨bound, s₁, tr₁, tr₂, hbind, hrest, rfl⟩ := Prog.trace_bind_iff.1 h
  obtain ⟨e, rfl, rfl, rfl⟩ := Prog.trace_atom_iff.1 hbind
  cases hplayer : s.players.lookup sid with
  | none =>
    simp only [hplayer] at hrest ⊢
    obtain ⟨rfl, rfl, rfl⟩ := Prog.trace_done_iff.1 hrest
    exact .inl ⟨trivial, rfl, rfl⟩
  | some player =>
    right
    simp only [hplayer] at hrest ⊢
    obtain ⟨room, s₂, tr₃, tr₄, hroom, hrest, rfl⟩ := Prog.trace_bind_iff.1 hrest
    obtain ⟨e₁, rfl, rfl, rfl⟩ := trace_look hroom
    obtain ⟨u, s₃, tr₅, tr₆, hreply, hrest, rfl⟩ := Prog.trace_bind_iff.1 hrest
    obtain ⟨hreplies, rfl⟩ := trace_reply hreply
    obtain ⟨hqueued, rfl⟩ := trace_announceJoin hrest
    refine ⟨player, e, queued tr₅, rfl, by simp, rfl, hreplies, ?_⟩
    simp only [queued_append, queued_cons, queued_nil, Label.queued_quiet, hqueued]
    rfl

theorem IdentifyOutcome.of_respondError {op : Nat} {text : String} {reqId : Option String} {s₁ : AppState}
    {tr' : List (Env × Label)} (hplayers : s₁.players = s.players) (hquiet : queued tr' = [])
    (h : Prog.Trace (respondError sid op text reqId) s₁ tr b s')
    : IdentifyOutcome s sid d (tr' ++ tr) s' := by
  obtain ⟨e, rfl, rfl⟩ := trace_respondError h
  refine .refused hplayers fun m hm => ?_
  rw [queued_append, hquiet, List.nil_append, queued_cons, queued_nil, List.append_nil] at hm
  exact congrArg Prod.fst (AppState.mem_queued_replyLabel hm)

theorem IdentifyOutcome.of_completeIdentify {user : StoredUser} {reqId : Option String} {s₁ : AppState}
    {tr' : List (Env × Label)} (huser : s.identifiedUser d = some user) (hplayers : s₁.players = s.players)
    (hquiet : queued tr' = [])
    (h : Prog.Trace (completeIdentify sid d (s.accounts.authenticatedUser user)
      ((MovesPlayers.requestedStatus d).getD user.status) reqId) s₁ tr b s')
    : IdentifyOutcome s sid d (tr' ++ tr) s' := by
  rcases trace_completeIdentify h with
    ⟨-, hqueued, rfl⟩ | ⟨player, e, replies, hplayer, hlabel, hplayers', hreplies, hqueued⟩
  . refine .refused hplayers fun m hm => ?_
    rw [queued_append, hquiet, hqueued] at hm
    contradiction
  . refine .bound user player e replies huser (hplayers ▸ hplayer) (List.mem_append_right _ hlabel)
      (hplayers ▸ hplayers') hreplies ?_
    rw [queued_append, hquiet, hqueued]
    rfl

theorem trace_identifyPlayer (h : Prog.Trace (identifyPlayer sid d) s tr b s')
    : IdentifyOutcome s sid d tr s' := by
  unfold identifyPlayer at h
  dsimp only at h
  split at h
  next token htoken =>
    have htoken : identifyToken d = some token := htoken
    obtain ⟨answer, s₁, tr₁, tr₂, hauth, hrest, rfl⟩ := Prog.trace_bind_iff.1 h
    obtain ⟨hquiet, rfl, hanswer⟩ := trace_authenticateToken hauth
    split at hrest
    . exact .of_respondError rfl hquiet hrest
    . exact .of_respondError rfl hquiet hrest
    next account =>
      obtain ⟨row, user, hrow, hexpires, huser, hdisabled, hbanned, rfl⟩ := hanswer account rfl
      have hidentified : s₁.identifiedUser d = some user := by
        simp [AppState.identifiedUser, htoken, hrow, Option.filter, hexpires, huser, hdisabled, hbanned]
      split at hrest
      . obtain ⟨stored, s₂, tr₃, tr₄, hstatus, hlast, rfl⟩ := Prog.trace_bind_iff.1 hrest
        obtain ⟨hquiet', hplayers⟩ := trace_updateStatus hstatus
        rw [← List.append_assoc]
        exact .of_completeIdentify hidentified hplayers (by simp [hquiet, hquiet']) hlast
      . exact .of_completeIdentify hidentified rfl hquiet hrest
  . have hrefused : IdentifyOutcome s sid d ([] ++ tr) s' := .of_respondError rfl rfl h
    exact hrefused

section Unbound

/--
A piece of a handler that binds no session.
-/
abbrev Unbinding (p : Proto α) : Prop := p.Emits fun l => ∀ k userId, l ≠ .bound k userId

theorem unbinding_authenticateToken (token : String) : Unbinding (authenticateToken token) := by
  refine .bind (.atom fun e s => ?_) fun session => ?_
  . split
    . exact nofun
    . dsimp only
      split
      . split
        . exact nofun
        . exact nofun
      . exact nofun
  . split
    . exact .pure _
    . exact .pure _
    . refine .bind (.atom fun e s => ?_) fun user => ?_
      . split
        . exact nofun
        . split
          . dsimp only
            split
            . exact nofun
            . exact nofun
          . exact nofun
      . split
        . exact .pure _
        . exact .pure _
        . split
          . exact .pure _
          . exact .pure _

theorem unbinding_respondError (op : Nat) (text : String) (reqId : Option String)
    : Unbinding (respondError sid op text reqId) := by
  refine .bind (.atom fun e s => ?_) fun _ => .pure _
  split
  . exact nofun
  . exact nofun

theorem unbinding_updateStatus (userId : String) (status : UserPresenceStatus)
    : Unbinding (updateStatus userId status) := by
  refine .atom fun e s => ?_
  split
  . exact nofun
  . exact nofun

theorem players_of_bound_completeIdentify {account : AuthenticatedUser} {status : UserPresenceStatus}
    {reqId : Option String} {e : Env} {k userId : String}
    (h : Prog.Trace (completeIdentify sid d account status reqId) s tr b s') (hbound : (e, .bound k userId) ∈ tr)
    : ∃ now, s'.players = s.players.modify sid (.identifyAs account status d now) := by
  rcases trace_completeIdentify h with ⟨hnone, -, -⟩ | ⟨player, e, replies, -, -, hplayers, -⟩
  . obtain ⟨bound, s₁, tr₁, tr₂, hbind, hrest, rfl⟩ := Prog.trace_bind_iff.1 h
    obtain ⟨e₁, rfl, rfl, rfl⟩ := Prog.trace_atom_iff.1 hbind
    simp only [hnone] at hrest hbound
    obtain ⟨rfl, -, -⟩ := Prog.trace_done_iff.1 hrest
    simp at hbound
  . exact ⟨e.now, hplayers⟩

theorem players_of_bound {e : Env} {k userId : String} (h : Prog.Trace (identifyPlayer sid d) s tr b s')
    (hbound : (e, .bound k userId) ∈ tr)
    : ∃ user now, s.identifiedUser d = some user ∧ s'.players = s.players.modify sid (s.identified d user now) := by
  unfold identifyPlayer at h
  dsimp only at h
  split at h
  next token htoken =>
    have htoken : identifyToken d = some token := htoken
    obtain ⟨answer, s₁, tr₁, tr₂, hauth, hrest, rfl⟩ := Prog.trace_bind_iff.1 h
    have hunbound := (unbinding_authenticateToken token).of_trace hauth
    have hbound := (List.mem_append.1 hbound).resolve_left fun hmem => hunbound _ hmem k userId rfl
    obtain ⟨-, rfl, hanswer⟩ := trace_authenticateToken hauth
    split at hrest
    . exact absurd rfl ((unbinding_respondError _ _ _).of_trace hrest _ hbound k userId)
    . exact absurd rfl ((unbinding_respondError _ _ _).of_trace hrest _ hbound k userId)
    next account =>
      obtain ⟨row, user, hrow, hexpires, huser, hdisabled, hbanned, rfl⟩ := hanswer account rfl
      have hidentified : s₁.identifiedUser d = some user := by
        simp [AppState.identifiedUser, htoken, hrow, Option.filter, hexpires, huser, hdisabled, hbanned]
      split at hrest
      . obtain ⟨stored, s₂, tr₃, tr₄, hstatus, hlast, rfl⟩ := Prog.trace_bind_iff.1 hrest
        have hunbound := (unbinding_updateStatus _ _).of_trace hstatus
        have hbound := (List.mem_append.1 hbound).resolve_left fun hmem => hunbound _ hmem k userId rfl
        obtain ⟨now, hplayers⟩ := players_of_bound_completeIdentify hlast hbound
        exact ⟨user, now, hidentified, (trace_updateStatus hstatus).2 ▸ hplayers⟩
      . obtain ⟨now, hplayers⟩ := players_of_bound_completeIdentify hrest hbound
        exact ⟨user, now, hidentified, hplayers⟩
  . exact absurd rfl ((unbinding_respondError _ _ _).of_trace h _ hbound k userId)

end Unbound

end Identify

section Join

variable {s s' : AppState} {sid : String} {tr : List (Env × Label)}

/--
What entering a room does to the sessions, and what being shown out again does after that.
-/
def Joins (sid : String) (m m' : AssocMap String PlayerSession) : Prop :=
  ∃ player roomId, m.lookup sid = some player ∧ roomId ∉ player.rooms
    ∧ (m' = m.modify sid (·.enter roomId) ∨ m' = (m.modify sid (·.enter roomId)).modify sid (·.exit roomId))

theorem KeepsPlayers.completeJoin (sid roomId username userId : String) (alreadyIn silentJoin : Bool)
    (reqId : Option String)
    : KeepsPlayers (completeJoin sid roomId username userId alreadyIn silentJoin reqId) := by
  refine .bind (.look _) fun status => .bind (.recordOrRoster _ _) fun room => ?_
  refine .bind (.look _) fun rosters => .bind (.look _) fun broadcastRosters => ?_
  dsimp only
  split
  . refine .bind (.broadcastToRoom _ _) fun _ => .bind (.respondOk _ _ _ _) fun _ => ?_
    exact .bind (.dispatchRoomHistory _ _ _) fun _ => .pure _
  . refine .bind (.respondOk _ _ _ _) fun _ => ?_
    exact .bind (.dispatchRoomHistory _ _ _) fun _ => .pure _

theorem trace_enterRoom {roomId : String} {answer : Except String (Bool × String × String)}
    (h : Prog.Trace (enterRoom sid roomId) s tr answer s')
    : s' = s ∧ (∀ alreadyIn username userId, answer = .ok (alreadyIn, username, userId) → alreadyIn = true)
      ∨ ∃ player, s.players.lookup sid = some player ∧ roomId ∉ player.rooms
        ∧ answer = .ok (false, player.username, player.userId)
        ∧ s'.players = s.players.modify sid (·.enter roomId) := by
  obtain ⟨e, rfl, rfl, rfl⟩ := Prog.trace_atom_iff.1 h
  split
  . exact .inl ⟨rfl, fun _ _ _ h => by simp at h⟩
  next player hplayer =>
    split
    . exact .inl ⟨rfl, fun _ _ _ h => by simp at h⟩
    . split
      . exact .inl ⟨rfl, fun _ _ _ h => by simp at h⟩
      . split
        . exact .inl ⟨rfl, fun _ _ _ h => by simp at h; exact h.1⟩
        next hroom =>
          exact .inr ⟨player, hplayer, by simpa using hroom, rfl, rfl⟩

theorem players_joinGame {d : Json} {b : Bool} (h : Prog.Trace (joinGame sid d) s tr b s')
    : s'.players = s.players ∨ Joins sid s.players s'.players := by
  obtain ⟨limited, s₁, tr₁, tr₂, hlimit, h₁, rfl⟩ := Prog.trace_bind_iff.1 h
  rw [← KeepsPlayers.hitRateLimit _ _ _ _ _ _ _ hlimit]
  dsimp only at h₁
  split at h₁
  . exact .inl (KeepsPlayers.respondError _ _ _ _ _ _ _ _ h₁)
  split at h₁
  next roomId _ =>
    split at h₁
    . exact .inl (KeepsPlayers.respondError _ _ _ _ _ _ _ _ h₁)
    obtain ⟨answer, s₂, tr₃, tr₄, henter, h₂, rfl⟩ := Prog.trace_bind_iff.1 h₁
    split at h₂
    . rcases trace_enterRoom henter with ⟨rfl, -⟩ | ⟨player, -, -, hanswer, -⟩
      . exact .inl (KeepsPlayers.respondError _ _ _ _ _ _ _ _ h₂)
      . contradiction
    rcases trace_enterRoom henter with ⟨rfl, hin⟩ | ⟨player, hplayer, hroom, hanswer, hplayers⟩
    . rw [if_pos (hin _ _ _ rfl)] at h₂
      exact .inl (KeepsPlayers.completeJoin _ _ _ _ _ _ _ _ _ _ _ h₂)
    . simp only [Except.ok.injEq, Prod.mk.injEq] at hanswer
      obtain ⟨rfl, rfl, rfl⟩ := hanswer
      rw [if_neg Bool.false_ne_true] at h₂
      refine .inr ⟨player, roomId, hplayer, hroom, ?_⟩
      rw [← hplayers]
      obtain ⟨room, s₃, tr₅, tr₆, hroom, h₃, rfl⟩ := Prog.trace_bind_iff.1 h₂
      rw [← KeepsPlayers.roomRecord _ _ _ _ _ hroom]
      split at h₃
      . -- An account that is banned is shown out again.
        obtain ⟨u, s₄, tr₇, tr₈, hexit, h₄, rfl⟩ := Prog.trace_bind_iff.1 h₃
        obtain ⟨e, rfl, -, rfl⟩ := Prog.trace_atom_iff.1 hexit
        exact .inr ((KeepsPlayers.bind (.respondToSender _ _) fun _ => .pure _) _ _ _ _ h₄)
      . exact .inl ((KeepsPlayers.bind (.syncRoomRecord _) fun _ => .completeJoin _ _ _ _ _ _ _) _ _ _ _ h₃)
  . exact .inl (KeepsPlayers.respondError _ _ _ _ _ _ _ _ h₁)

end Join

end Lqxp
