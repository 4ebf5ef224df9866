import Lqxp.Core.Database
import Lqxp.Core.Usernames
import Lqxp.Prog.Emits

/-!
This module contains the state of the server together with the secrets of its accounts, and the statements
on the account tables, each one atomic step.
-/

namespace Lqxp

def sessionTtlMs : Nat := 7 * 24 * 60 * 60 * 1000

def usernameChangeWindowMs : Nat := 7 * 24 * 60 * 60 * 1000

/--
The columns of a user that only the account services read.
-/
structure UserSecrets where
  passwordHash : String
  recoveryHash : String
  usernameChanges : List Nat := []
  deriving DecidableEq

structure AccountState where
  app : AppState
  secrets : AssocMap String UserSecrets := ∅
  registerEnabled : Bool := true

/--
What the outside world supplies to one step of an account service. Tokens, salts and recovery words are
drawn at random.
-/
structure AccountEnv extends Env where
  token : String := ""
  salt : String := ""
  recoveryWords : List String := []

def AccountEnv.calm : AccountEnv := { toEnv := .calm }

/--
How a step of an account service is seen from outside. What such a step does to the state is all in its
label; a step on behalf of a session does what its inner label says.
-/
inductive AccountLabel where
  | quiet
  /-- A step of the websocket, for a session as the step finds it. -/
  | handled (sid : Option String) (sender : Option PlayerSession) (label : Label)
  /-- The account that has been found under a name, with its password. -/
  | found (userId passwordHash : String)
  | registered (user : StoredUser) (secrets : UserSecrets)
  | issued (userId tokenHash : String) (expiresAt : Nat)
  | touched (tokenHash : String) (expiresAt : Nat)
  | revokedToken (tokenHash : String)
  | revoked (userId : String)
  | rehashed (userId passwordHash : String)
  | disabled (userId : String) (value : Bool)
  | banned (userId : String) (value : Bool)
  | deleted (userId : String)
  | renamed (userId username : String) (usernameChanges : List Nat)
  | renamedSessions (userId username : String)
  | revalidated (sid : String) (isAdmin : Bool) (badges : List String) (username : String) (now : Nat)
  /-- The sessions of an account that are about to be closed. -/
  | listed (userId : String) (sids : List String)
  /-- The last messages to a session that is about to be closed. -/
  | closing (sid : String) (payload : Json)

namespace AccountState

variable (s : AccountState)

def withAccounts (accounts : AccountDatabase) : AccountState := { s with app := { s.app with accounts } }

def withPlayers (players : AssocMap String PlayerSession) : AccountState :=
  { s with app := { s.app with players } }

def updateUser (userId : String) (f : StoredUser → StoredUser) : AccountState :=
  s.withAccounts { s.app.accounts with users := s.app.accounts.users.modify userId f }

def withSessions (sessions : AssocMap String SessionRow) : AccountState :=
  s.withAccounts { s.app.accounts with sessions }

def updateSecrets (userId : String) (f : UserSecrets → UserSecrets) : AccountState :=
  { s with secrets := s.secrets.modify userId f }

end AccountState

/--
What a step of an account service does to the state.
-/
def AccountLabel.apply (s : AccountState) : AccountLabel → AccountState
  | .registered user secrets =>
    { s.withAccounts { s.app.accounts with users := s.app.accounts.users.insert user.id user } with
      secrets := s.secrets.insert user.id secrets }
  | .issued userId tokenHash expiresAt =>
    s.withSessions (s.app.accounts.sessions.insert tokenHash { userId, expiresAt })
  | .touched tokenHash expiresAt =>
    s.withSessions (s.app.accounts.sessions.modify tokenHash fun row => { row with expiresAt })
  | .revokedToken tokenHash => s.withSessions (s.app.accounts.sessions.erase tokenHash)
  | .revoked userId => s.withSessions (s.app.accounts.sessions.retain fun _ row => row.userId ≠ userId)
  | .rehashed userId passwordHash =>
    s.updateSecrets userId fun secrets => { secrets with passwordHash }
  | .disabled userId value => s.updateUser userId fun user => { user with disabled := value }
  | .banned userId value => s.updateUser userId fun user => { user with banned := value }
  | .deleted userId =>
    { s.withAccounts { s.app.accounts with users := s.app.accounts.users.erase userId } with
      secrets := s.secrets.erase userId }
  | .renamed userId username usernameChanges =>
    (s.updateUser userId fun user => { user with username }).updateSecrets userId fun secrets =>
      { secrets with usernameChanges }
  | .renamedSessions userId username =>
    s.withPlayers <| s.app.players.mapValues fun _ player =>
      if player.userId = userId then { player with username } else player
  | .revalidated sid isAdmin badges username now =>
    s.withPlayers <| s.app.players.modify sid fun player =>
      { player with isAdmin, badges, username, lastRevalidationMs := now }
  | .quiet | .handled .. | .found .. | .listed .. | .closing .. => s

/--
A piece of an account service.
-/
abbrev Accounts (α : Type) := Prog AccountEnv AccountState AccountLabel α

/--
A piece of an account service that may fail.
-/
abbrev Api (α : Type) := ExceptT ApiError (Prog AccountEnv AccountState AccountLabel) α

/--
One atomic step, which does to the state what its label says.
-/
def perform (f : AccountEnv → AccountState → α × AccountLabel) : Accounts α :=
  .atom fun e s => ((f e s).1, (f e s).2, (f e s).2.apply s)

def statement (f : AccountEnv → AccountState → ApiResult α × AccountLabel) : Api α :=
  ExceptT.mk <| perform fun e s => if e.dbFails then (.error .internal, .quiet) else f e s

def attempt (p : Api α) : Api (ApiResult α) := ExceptT.lift p.run

/--
The part of the websocket in the state, for steps on behalf of a session.
-/
def handledView (sid : Option String)
    : Prog.View Env AppState Label AccountEnv AccountState AccountLabel where
  env := AccountEnv.toEnv
  get := AccountState.app
  put app s := { s with app }
  tag s l := .handled sid (sid.bind s.app.players.lookup) l
  get_put _ _ := rfl

def handled (sid : Option String) (p : Proto α) : Accounts α := p.zoom (handledView sid)

section Statements

variable (x : Externals)

abbrev PublicUser := AuthenticatedUser

/--
A row of the table of users, with what of it may be shown.
-/
structure StoredAccount where
  user : StoredUser
  secrets : UserSecrets
  publicUser : PublicUser

def AccountState.account (s : AccountState) (user : StoredUser) : StoredAccount :=
  { user, secrets := (s.secrets.lookup user.id).getD { passwordHash := "", recoveryHash := "" }
    publicUser := s.app.accounts.authenticatedUser user }

def findUserById (userId : String) : Api (Option StoredAccount) :=
  statement fun _ s =>
    let row := (s.app.accounts.users.lookup userId).filter (·.id = userId)
    (.ok (row.map s.account), .quiet)

def findUserByUsername (username : String) : Api (Option StoredAccount) :=
  statement fun _ s =>
    let normalized := normalizeUsername x username
    match (s.app.accounts.users.values.find? (·.username = normalized)).map s.account with
    | some account => (.ok (some account), .found account.user.id account.secrets.passwordHash)
    | none => (.ok none, .quiet)

def hashSecret (secret : String) : Api String :=
  ExceptT.lift <| perform fun e _ => (x.hashSecret e.salt secret, .quiet)

/--
Draw a new token for an account and store its hash.
-/
def createSession (userId : String) : Api String :=
  statement fun e s =>
    let tokenHash := s.app.accounts.tokenHash e.token
    match s.app.accounts.sessions.lookup tokenHash with
    | some _ => (.error .internal, .quiet)
    | none => (.ok e.token, .issued userId tokenHash (e.now + sessionTtlMs))

def invalidateUserSessions (userId : String) : Api Unit :=
  statement fun _ _ => (.ok (), .revoked userId)

def touchSession (token : String) : Api Unit :=
  statement fun e s => (.ok (), .touched (s.app.accounts.tokenHash token) (e.now + sessionTtlMs))

def deleteSession (token : String) : Api Unit :=
  statement fun _ s => (.ok (), .revokedToken (s.app.accounts.tokenHash token))

def updatePasswordHash (userId passwordHash : String) : Api Unit :=
  statement fun _ _ => (.ok (), .rehashed userId passwordHash)

def setDisabledFlag (userId : String) (value : Bool) : Api Unit :=
  statement fun _ _ => (.ok (), .disabled userId value)

def setBannedFlag (userId : String) (value : Bool) : Api Unit :=
  statement fun _ _ => (.ok (), .banned userId value)

def deleteUserRow (userId : String) : Api Unit := statement fun _ _ => (.ok (), .deleted userId)

/--
A deletion from a table that nothing here reads.
-/
def deleteOtherRows : Api Unit := statement fun _ _ => (.ok (), .quiet)

/--
Insert a user, unless its id or its name is taken. The id is drawn at random.
-/
def insertUser (username passwordHash recoveryHash : String) : Api (Option String) :=
  ExceptT.lift <| perform fun e s =>
    let taken := s.app.accounts.users.values.any (·.username = username)
    if e.dbFails || taken || (s.app.accounts.users.lookup e.randomId).isSome then
      (none, .quiet)
    else
      let user : StoredUser := { id := e.randomId, username, createdAt := e.now }
      (some e.randomId, .registered user { passwordHash, recoveryHash })

/--
Give a user another name, unless the name is taken.
-/
def updateUsername (userId username : String) (usernameChanges : List Nat) : Api Unit :=
  statement fun _ s =>
    if s.app.accounts.users.values.any fun user => user.username = username && user.id ≠ userId then
      (.error .internal, .quiet)
    else
      (.ok (), .renamed userId username usernameChanges)

end Statements

end Lqxp
