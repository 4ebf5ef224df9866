import Lqxp.Accounts.Lemmas.Server
import Lqxp.Websocket.Protocol.Lemmas.Authors

/-!
This module contains what the steps of the services do to the sessions and to the rows of the accounts.
-/

namespace Lqxp

/--
Sessions and rows are kept under their ids, and every row has all of its columns.
-/
structure AccountState.Keyed (s : AccountState) : Prop where
  players (sid : String) (player : PlayerSession) : s.app.players.lookup sid = some player → player.id = sid
  users (userId : String) (user : StoredUser)
    : s.app.accounts.users.lookup userId = some user → user.id = userId
  secrets (userId : String) (user : StoredUser)
    : s.app.accounts.users.lookup userId = some user → (s.secrets.lookup userId).isSome

/--
The step binds a session to an account.
-/
def AccountLabel.Binds (l : AccountLabel) (sid userId : String) : Prop :=
  ∃ on sender, l = .handled on sender (.bound sid userId)

def AccountLabel.isBound : AccountLabel → Bool
  | .handled _ _ (.bound ..) => true
  | _ => false

def AccountState.passwordHash (s : AccountState) (userId : String) : Option String :=
  (s.secrets.lookup userId).map (·.passwordHash)

variable {x : Externals} {g : AccountMemory} {e : AccountEnv} {s s' : AccountState} {l : AccountLabel}
variable {sid userId : String}

theorem AccountTransition.session (h : AccountTransition g e s l s') {player' : PlayerSession}
    (hplayer' : s'.app.players.lookup sid = some player')
    : (∃ player, s.app.players.lookup sid = some player ∧ player.id = player'.id
          ∧ player.userId = player'.userId)
        ∨ player' = { id := sid }
        ∨ (l.Binds sid player'.userId
          ∧ ∃ player, s.app.players.lookup sid = some player ∧ player.id = player'.id) := by
  cases l with
  | handled on sender label =>
    rcases h.1.session hplayer' with ⟨player, hplayer, hid, huser, -⟩ | ⟨-, rfl⟩
      | ⟨rfl, player, hplayer, hid, -⟩
    . exact .inl ⟨player, hplayer, hid, huser⟩
    . exact .inr (.inl rfl)
    . exact .inr (.inr ⟨⟨on, sender, rfl⟩, player, hplayer, hid⟩)
  | renamedSessions userId username =>
    obtain ⟨rfl, -⟩ := h
    obtain ⟨player, hplayer, rfl⟩ :=
      Option.map_eq_some_iff.1 ((AssocMap.lookup_mapValues _ _ _).symm.trans hplayer')
    refine .inl ⟨player, hplayer, ?_⟩
    split
    . exact ⟨rfl, rfl⟩
    . exact ⟨rfl, rfl⟩
  | revalidated sid' isAdmin badges username now =>
    obtain ⟨rfl, -⟩ := h
    have hlookup := (AssocMap.lookup_modify sid' sid _ _).symm.trans hplayer'
    split at hlookup
    next =>
      obtain ⟨player, hplayer, rfl⟩ := Option.map_eq_some_iff.1 hlookup
      exact .inl ⟨player, hplayer, rfl, rfl⟩
    next => exact .inl ⟨player', hlookup, rfl, rfl⟩
  | _ =>
    obtain ⟨rfl, -⟩ := h
    exact .inl ⟨player', hplayer', rfl, rfl⟩

theorem AccountTransition.bound (h : AccountTransition g e s l s') (hbinds : l.Binds sid userId)
    {player' : PlayerSession} (hplayer' : s'.app.players.lookup sid = some player')
    : player'.userId = userId := by
  obtain ⟨on, sender, rfl⟩ := hbinds
  obtain ⟨⟨-, -, f, hf, happ⟩, -⟩ := h
  rw [happ, AssocMap.lookup_modify_self] at hplayer'
  obtain ⟨player, -, rfl⟩ := Option.map_eq_some_iff.1 hplayer'
  exact (hf player).2.1

theorem AccountTransition.user (h : AccountTransition g e s l s') {user' : StoredUser}
    (huser' : s'.app.accounts.users.lookup userId = some user')
    : (∃ user, s.app.accounts.users.lookup userId = some user ∧ user.id = user'.id
          ∧ (user.disabled = user'.disabled ∨ l = .disabled userId user'.disabled)
          ∧ (user.banned = user'.banned ∨ l = .banned userId user'.banned))
        ∨ (∃ secrets, l = .registered user' secrets) ∧ user'.id = userId := by
  cases l with
  | handled on sender label =>
    obtain ⟨user, huser, hid, hdisabled, hbanned⟩ := h.1.users huser'
    exact .inl ⟨user, huser, hid, .inl hdisabled, .inl hbanned⟩
  | registered user secrets =>
    obtain ⟨rfl, -⟩ := h
    have hlookup := (AssocMap.lookup_insert user.id userId user _).symm.trans huser'
    split at hlookup
    next heq =>
      obtain rfl := Option.some.inj hlookup
      exact .inr ⟨⟨secrets, rfl⟩, heq.symm⟩
    next => exact .inl ⟨user', hlookup, rfl, .inl rfl, .inl rfl⟩
  | deleted userId' =>
    obtain ⟨rfl, -⟩ := h
    have hlookup := (AssocMap.lookup_erase userId' userId _).symm.trans huser'
    split at hlookup
    . contradiction
    . exact .inl ⟨user', hlookup, rfl, .inl rfl, .inl rfl⟩
  | disabled userId' value | banned userId' value | renamed userId' username changes =>
    obtain ⟨rfl, -⟩ := h
    have hlookup := (AssocMap.lookup_modify userId' userId _ _).symm.trans huser'
    split at hlookup
    next heq =>
      obtain ⟨user, huser, rfl⟩ := Option.map_eq_some_iff.1 hlookup
      refine .inl ⟨user, huser, rfl, ?_, ?_⟩ <;> simp [heq]
    next => exact .inl ⟨user', hlookup, rfl, .inl rfl, .inl rfl⟩
  | _ =>
    obtain ⟨rfl, -⟩ := h
    exact .inl ⟨user', huser', rfl, .inl rfl, .inl rfl⟩

theorem AccountTransition.passwordHash (h : AccountTransition g e s l s') {user' : StoredUser}
    (huser' : s'.app.accounts.users.lookup userId = some user')
    : s'.passwordHash userId = s.passwordHash userId
        ∨ (∃ hash, l = .rehashed userId hash
          ∧ s'.passwordHash userId = (s.passwordHash userId).map fun _ => hash)
        ∨ ∃ user secrets, l = .registered user secrets ∧ user.id = userId
          ∧ s'.passwordHash userId = some secrets.passwordHash := by
  cases l with
  | handled on sender label =>
    rw [h.2.1]
    exact .inl rfl
  | registered user secrets =>
    obtain ⟨rfl, -⟩ := h
    have hlookup := AssocMap.lookup_insert user.id userId secrets s.secrets
    simp only [AccountState.passwordHash, AccountLabel.apply, hlookup]
    split
    next heq => exact .inr (.inr ⟨user, secrets, rfl, heq.symm, rfl⟩)
    next => exact .inl rfl
  | rehashed userId' hash =>
    obtain ⟨rfl, -⟩ := h
    have hlookup := AssocMap.lookup_modify userId' userId
      (fun secrets : UserSecrets => { secrets with passwordHash := hash }) s.secrets
    simp only [AccountState.passwordHash, AccountLabel.apply, AccountState.updateSecrets, hlookup]
    split
    next heq =>
      subst heq
      exact .inr (.inl ⟨hash, rfl, by simp [Option.map_map, Function.comp_def]⟩)
    next => exact .inl rfl
  | deleted userId' =>
    obtain ⟨rfl, -⟩ := h
    have hgone := (AssocMap.lookup_erase userId' userId _).symm.trans huser'
    have hlookup := AssocMap.lookup_erase userId' userId s.secrets
    split at hgone
    . contradiction
    next hne =>
      rw [if_neg hne] at hlookup
      exact .inl (by simp [AccountState.passwordHash, AccountLabel.apply, hlookup])
  | renamed userId' username changes =>
    obtain ⟨rfl, -⟩ := h
    have hlookup := AssocMap.lookup_modify userId' userId
      (fun secrets : UserSecrets => { secrets with usernameChanges := changes }) s.secrets
    simp only [AccountState.passwordHash, AccountLabel.apply, AccountState.updateSecrets,
      AccountState.updateUser, AccountState.withAccounts, hlookup]
    split
    next => exact .inl (by simp [Option.map_map, Function.comp_def])
    next => exact .inl rfl
  | _ =>
    obtain ⟨rfl, -⟩ := h
    exact .inl rfl

theorem keyed_step (h : AccountTransition g e s l s') (hkeyed : s.Keyed) : s'.Keyed where
  players sid player' hplayer' := by
    rcases h.session hplayer' with ⟨player, hplayer, hid, -⟩ | rfl | ⟨-, player, hplayer, hid⟩
    . exact hid ▸ hkeyed.players sid player hplayer
    . rfl
    . exact hid ▸ hkeyed.players sid player hplayer
  users userId user' huser' := by
    rcases h.user huser' with ⟨user, huser, hid, -⟩ | ⟨-, hid⟩
    . exact hid ▸ hkeyed.users userId user huser
    . exact hid
  secrets userId user' huser' := by
    rcases h.user huser' with ⟨user, huser, -⟩ | ⟨⟨secrets, rfl⟩, rfl⟩
    . have hold : (s.passwordHash userId).isSome := by
        simpa [AccountState.passwordHash] using hkeyed.secrets userId user huser
      have hsome : (s'.passwordHash userId).isSome := by
        rcases h.passwordHash huser' with hsame | ⟨hash, -, hset⟩ | ⟨user, secrets, -, -, hset⟩
        . rw [hsame]
          exact hold
        . simp [hset, hold]
        . simp [hset]
      simpa [AccountState.passwordHash] using hsome
    . obtain ⟨rfl, -⟩ := h
      simp [AccountLabel.apply]

namespace AccountPool

/--
The server when it starts, on any tables whose rows are kept under their ids.
-/
structure Started (p : AccountPool) : Prop where
  threads : p.threads = []
  players : p.state.app.players = ∅
  keyed : p.state.Keyed

def Reachable (x : Externals) (q : AccountPool) : Prop :=
  ∃ (p : AccountPool) (tr : List AccountEvent), p.Started ∧ Prog.Run (accounts x) (fun _ _ _ _ _ => True) p tr q

variable {p q : AccountPool} {tr : List AccountEvent}

theorem keyed_of_run (h : Prog.Run (accounts x) AccountTransition p tr q) (hp : p.state.Keyed)
    : q.state.Keyed :=
  h.state_invariant AccountState.Keyed (fun _ _ _ _ _ h => keyed_step h) hp

theorem Reachable.run (h : p.Reachable x) (hrun : Prog.Run (accounts x) (fun _ _ _ _ _ => True) p tr q)
    : q.Reachable x := by
  obtain ⟨p₀, tr₀, hp₀, hrun₀⟩ := h
  exact ⟨p₀, tr₀ ++ tr, hp₀, hrun₀.append hrun⟩

theorem Reachable.step {ev : AccountEvent} (h : p.Reachable x)
    (hstep : Prog.Step (accounts x) (fun _ _ _ _ _ => True) p ev q) : q.Reachable x :=
  h.run (.snoc (.nil p) hstep)

theorem Reachable.ready (h : q.Reachable x) : q.Ready ∧ q.state.Keyed := by
  obtain ⟨p, tr, hp, hrun⟩ := h
  obtain ⟨hrun, hready⟩ := Ready.run hrun (by simp [Ready, hp.threads])
  exact ⟨hready, keyed_of_run hrun hp.keyed⟩

end AccountPool

/--
The server when it starts, with the given accounts and session tokens.
-/
def idleAccounts (accounts : List (StoredUser × UserSecrets)) (sessions : List (String × SessionRow))
    : AccountPool where
  state :=
    { app :=
        { accounts :=
            { users := accounts.foldr (fun account users => users.insert account.1.id account.1) ∅
              sessions := sessions.foldr (fun row rows => rows.insert row.1 row.2) ∅ } }
      secrets := accounts.foldr (fun account secrets => secrets.insert account.1.id account.2) ∅ }
  threads := []

theorem started_idleAccounts (accounts : List (StoredUser × UserSecrets))
    (sessions : List (String × SessionRow)) : (idleAccounts accounts sessions).Started where
  threads := rfl
  players := rfl
  keyed := by
    refine ⟨fun sid player hplayer => ?_, fun userId user huser => ?_, fun userId user huser => ?_⟩
    . exact absurd hplayer (by simp [idleAccounts])
    . simp only [idleAccounts] at huser
      induction accounts with
      | nil => simp at huser
      | cons account accounts ih =>
        rw [List.foldr_cons, AssocMap.lookup_insert] at huser
        split at huser
        next heq =>
          obtain rfl := Option.some.inj huser
          exact heq.symm
        next => exact ih huser
    . simp only [idleAccounts] at huser ⊢
      induction accounts with
      | nil => simp at huser
      | cons account accounts ih =>
        rw [List.foldr_cons, AssocMap.lookup_insert] at huser ⊢
        split
        . rfl
        next hne =>
          rw [if_neg hne] at huser
          exact ih huser

def plainExternals : Externals where
  hashSecret _ secret := secret
  verifySecret secret hash := secret = hash
  toLowercase text := text
  isAlphanumeric _ := true
  sqlLower text := text
  sqlLike pattern text := pattern = "%" || pattern = text
  blocklistTerms := []

def oneAccount : AccountPool :=
  idleAccounts [({ id := "u", username := "uwe" }, { passwordHash := "secret", recoveryHash := "words" })]
    [("t", { userId := "u", expiresAt := 100 })]

/--
A session of the account connects and the check of its token passes.
-/
def checkToken : List (Prog.Cmd AccountRequest AccountEnv) :=
  Prog.Cmd.serve (.websocket (.connect "s")) 0 1 .calm
    ++ Prog.Cmd.serve (.websocket (.message "s" .identify (.obj [("token", .str "t")]))) 1 2 .calm

/--
A test for the listing of the only session of an account.
-/
def listsSession (userId sid : String) : AccountEvent → Bool
  | .act _ _ _ (.listed userId' sids) => userId' = userId && sids = [sid]
  | _ => false

theorem exists_of_listsSession {ev : AccountEvent} (h : listsSession userId sid ev)
    : ∃ i g e, ev = .act i g e (.listed userId [sid]) := by
  unfold listsSession at h
  split at h
  next i g e userId' sids =>
    simp only [Bool.and_eq_true, decide_eq_true_eq] at h
    exact ⟨i, g, e, by rw [h.1, h.2]⟩
  next => contradiction

end Lqxp
