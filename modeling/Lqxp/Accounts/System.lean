import Lqxp.Services.Admin
import Lqxp.Websocket.Protocol.System

/-!
This module contains the whole server as one system: the handlers of the websocket and the account
services, concurrently over one state.
-/

namespace Lqxp

inductive AccountRequest where
  | websocket (req : Request)
  | revalidate (sid : String)
  | register (username password : String)
  | login (username password : String)
  | recover (username recoveryWords newPassword : String)
  | me (token : String)
  | logout (token : String)
  | deleteAccount (token password : String)
  | changeUsername (user : AuthenticatedUser) (newUsername : String)
  | setUserDisabled (admin : AuthenticatedUser) (targetUserId : String) (disabled : Bool)
  | setUserBanned (admin : AuthenticatedUser) (targetUserId : String) (banned : Bool)
  | deleteUserAccount (admin : AuthenticatedUser) (targetUserId : String)
  | purgeAccounts (admin : AuthenticatedUser) (filter : PurgeFilter)

def AccountRequest.handle (x : Externals) : AccountRequest → Accounts (ApiResult AccountReply)
  | .websocket req => do
    handled req.sid? req.handle
    return .ok .done
  | .revalidate sid => do
    let _ ← revalidateSession sid
    return .ok .done
  | .register username password => (Auth.register x username password).run
  | .login username password => (Auth.login x username password).run
  | .recover username recoveryWords newPassword =>
    (Auth.recover x username recoveryWords newPassword).run
  | .me token => (Auth.me token).run
  | .logout token => (Auth.logout token).run
  | .deleteAccount token password => (Auth.deleteAccount x token password).run
  | .changeUsername user newUsername => (Auth.changeUsername x user newUsername).run
  | .setUserDisabled admin targetUserId disabled =>
    (Admin.setUserDisabled admin targetUserId disabled).run
  | .setUserBanned admin targetUserId banned => (Admin.setUserBanned admin targetUserId banned).run
  | .deleteUserAccount admin targetUserId => (Admin.deleteUserAccount admin targetUserId).run
  | .purgeAccounts admin filter => (Admin.purgeAccounts x admin filter).run

/--
The handler that runs inside a service. A service that is not on behalf of a session counts as a task.
-/
def AccountRequest.inner : AccountRequest → Request
  | .websocket req => req
  | _ => .preview 0

/--
What a run of a service has seen and done so far.
-/
structure AccountMemory where
  req : AccountRequest
  /-- The memory of the handler that runs inside. -/
  inner : Memory
  /-- The session that the handler runs for, as it was when the handler looked it up or took it away. -/
  sender : Option PlayerSession := none
  /-- The account that has been found under a name, with its password as it was. -/
  found : Option (String × String) := none
  /-- The account whose password has been replaced. -/
  rehashed : Option String := none
  /-- The account whose sessions are being closed, and these sessions. -/
  listed : Option (String × List String) := none
  /-- The sessions that have been taken away since. -/
  evicted : List String := []

namespace AccountMemory

def next (g : AccountMemory) : AccountLabel → AccountMemory
  | .handled sid sender label =>
    { g with
      inner := g.inner.next label
      sender :=
        match label with
        | .actor .. | .left .. | .disconnected _ => sender
        | _ => g.sender
      evicted := sid.toList ++ g.evicted }
  | .closing sid _ => { g with inner := { req := .disconnect sid } }
  | .found userId passwordHash => { g with found := some (userId, passwordHash) }
  | .rehashed userId _ => { g with rehashed := some userId }
  | .listed userId sids => { g with listed := some (userId, sids), evicted := [] }
  | _ => g

end AccountMemory

def accounts (x : Externals)
    : Prog.System AccountRequest AccountEnv AccountState AccountLabel AccountMemory
        (ApiResult AccountReply) where
  handle := AccountRequest.handle x
  start req := { req, inner := { req := req.inner } }
  next := AccountMemory.next

abbrev AccountPool :=
  Prog.Pool AccountEnv AccountState AccountLabel AccountMemory (ApiResult AccountReply)

abbrev AccountEvent := Prog.Event AccountRequest AccountEnv AccountLabel AccountMemory

end Lqxp
