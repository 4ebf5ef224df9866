import Lqxp.Core.Accounts
import Lqxp.Websocket.Protocol.Impl.Sessions

/-!
This module contains what the state of an account does to its sessions: all of them are closed, or one of
them is checked again.
-/

namespace Lqxp

def listSessions (userId : String) : Accounts (List String) :=
  perform fun _ s =>
    let sessions := s.app.players.values.filter (·.userId = userId)
    (sessions.map (·.id), .listed userId (sessions.map (·.id)))

/--
Send a session the last messages, if it is still connected.
-/
def closeSession (sid : String) (payload : Json) : Accounts Unit :=
  perform fun _ _ => ((), .closing sid payload)

def closeSessions (payload : Json) : List String → Accounts Unit
  | [] => return ()
  | sid :: sids => do
    closeSession sid payload
    handled (some sid) (disconnectPlayer sid)
    closeSessions payload sids

def evictUser (userId reason : String) : Accounts Unit := do
  let sids ← listSessions userId
  closeSessions (message 999 [("reason", .str reason)]) sids

def disconnectUserSessions (userId reason : String) : Accounts Unit := do
  let sids ← listSessions userId
  closeSessions (message 0 [("error", .str reason)]) sids

def sessionMaxAgeMs : Nat := 30 * 24 * 60 * 60 * 1000

def revalidationIntervalMs : Nat := 5 * 60 * 1000

/--
Whether a session may go on, checked before most of its messages. From time to time the account is read
again.
-/
def revalidateSession (sid : String) : Accounts Bool := do
  let now ← perform fun e _ => (e.now, .quiet)
  let some player ← perform fun _ s => (s.app.players.lookup sid, .quiet)
    | return true
  if player.userId = "" then
    return true
  else if player.identifiedAtMs ≠ 0 && sessionMaxAgeMs < now - player.identifiedAtMs then
    return false
  else if now - player.lastRevalidationMs < revalidationIntervalMs then
    return true
  else do
  match ← (findUserById player.userId).run with
  | .error _ => return true
  | .ok none => return false
  | .ok (some account) =>
    if account.user.disabled || account.user.banned then
      return false
    else do
      let user := account.publicUser
      perform fun _ _ => ((), .revalidated sid user.admin user.badges user.username now)
      return true

end Lqxp
