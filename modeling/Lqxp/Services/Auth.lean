import Lqxp.Core.Eviction

/-!
This module contains the account services that everybody may use: registration, login, recovery of an
account, and what its owner may change.
-/

namespace Lqxp

/--
What a service answers with when it succeeds.
-/
inductive AccountReply where
  | done
  | user (user : PublicUser)
  | session (user : PublicUser) (token : String)
  | account (user : PublicUser) (token : String) (recoveryWords : List String)
  | purged (count : Nat)

variable (x : Externals)

def authenticate (token : String) : Api (Option AuthenticatedUser) := do
  match ← ExceptT.lift (handled none (authenticateToken token)) with
  | none => throw .internal
  | some user => return user

namespace AccountDatabase

def register (username password : String) : Api (PublicUser × String × List String) := do
  let username ← ExceptT.mk (return validateRegistrationUsername x username)
  ExceptT.mk (return validatePassword password)
  if (← findUserByUsername x username).isSome then
    throw (.badRequest "Registration request could not be processed.")
  let recoveryWords ← ExceptT.lift (perform fun e _ => (e.recoveryWords, .quiet))
  let passwordHash ← hashSecret x password
  let recoveryHash ← hashSecret x (" ".intercalate recoveryWords)
  let some id ← insertUser username passwordHash recoveryHash
    | throw (.badRequest "Registration request could not be processed.")
  let some account ← findUserById id
    | throw (.badRequest "Account was not created.")
  let token ← createSession id
  return (account.publicUser, token, recoveryWords)

def login (username password : String) : Api (PublicUser × String) := do
  match ← findUserByUsername x (normalizeUsername x username) with
  | some account =>
    if !x.verifySecret password account.secrets.passwordHash then
      throw (.unauthorized "Invalid credentials.")
    if account.user.banned then
      throw (.forbidden "Account is banned.")
    if account.user.disabled then
      throw (.forbidden "Account is disabled.")
    let token ← createSession account.user.id
    return (account.publicUser, token)
  | none => throw (.unauthorized "Invalid credentials.")

def recover (username recoveryWords newPassword : String) : Api (PublicUser × String) := do
  ExceptT.mk (return validatePassword newPassword)
  match ← findUserByUsername x (normalizeUsername x username) with
  | some account =>
    if !x.verifySecret (normalizeRecoveryPhrase x recoveryWords) account.secrets.recoveryHash then
      throw (.unauthorized "Invalid credentials.")
    if account.user.banned then
      throw (.forbidden "Account is banned.")
    let passwordHash ← hashSecret x newPassword
    updatePasswordHash account.user.id passwordHash
    invalidateUserSessions account.user.id
    let token ← createSession account.user.id
    let some updated ← findUserById account.user.id
      | throw (.badRequest "Account not found.")
    return (updated.publicUser, token)
  | none => throw (.badRequest "Invalid recovery credentials.")

def deleteUserAccount (userId : String) : Api Unit := do
  if (← findUserById userId).isNone then
    throw (.badRequest "Account not found.")
  invalidateUserSessions userId
  deleteOtherRows
  deleteOtherRows
  deleteUserRow userId

def deleteAccount (token password : String) : Api Unit := do
  let some user ← authenticate token
    | throw (.unauthorized "Not authenticated.")
  let some stored ← findUserById user.id
    | throw (.badRequest "Account not found.")
  if !x.verifySecret password stored.secrets.passwordHash then
    throw (.unauthorized "Invalid credentials.")
  deleteUserAccount user.id

def me (token : String) : Api (Option (PublicUser × String)) := do
  let some user ← authenticate token
    | return none
  touchSession token
  return some (user, token)

def changeUsername (userId username : String) : Api PublicUser := do
  let username ← ExceptT.mk (return validateUsername x username)
  let some account ← findUserById userId
    | throw (.badRequest "Account not found.")
  if account.user.username = username then
    return account.publicUser
  let now ← ExceptT.lift (perform fun e _ => (e.now, .quiet))
  let changes := account.secrets.usernameChanges.filter (now - usernameChangeWindowMs ≤ ·)
  if changes ≠ [] then
    throw (.tooManyRequests "Username can only be changed once per week.")
  let existing ← findUserByUsername x username
  if existing.any (·.user.id ≠ userId) then
    throw (.badRequest "Username is not available.")
  updateUsername userId username (changes ++ [now])
  let some updated ← findUserById userId
    | throw (.badRequest "Account not found.")
  return updated.publicUser

end AccountDatabase

namespace Auth

def register (username password : String) : Api AccountReply := do
  let registerEnabled ← statement fun _ s => (.ok s.registerEnabled, .quiet)
  if !registerEnabled then
    throw (.forbidden "Registrations are disabled.")
  if usernameHitsBlocklist x username then
    throw (.badRequest "Username is not allowed.")
  let (user, token, recoveryWords) ← AccountDatabase.register x username password
  return .account user token recoveryWords

def login (username password : String) : Api AccountReply := do
  let (user, token) ← AccountDatabase.login x username password
  return .session user token

def recover (username recoveryWords newPassword : String) : Api AccountReply := do
  let (user, token) ← AccountDatabase.recover x username recoveryWords newPassword
  ExceptT.lift (disconnectUserSessions user.id "Password reset.")
  return .session user token

def me (token : String) : Api AccountReply := do
  let some (user, token) ← AccountDatabase.me token
    | throw (.unauthorized "Invalid session.")
  return .session user token

def logout (token : String) : Api AccountReply := do
  let user ← authenticate token
  deleteSession token
  if let some user := user then
    ExceptT.lift (disconnectUserSessions user.id "Session revoked.")
  return .done

def deleteAccount (token password : String) : Api AccountReply := do
  let some user ← authenticate token
    | throw (.unauthorized "Not authenticated.")
  AccountDatabase.deleteAccount x token password
  ExceptT.lift (disconnectUserSessions user.id "Account deleted.")
  return .done

def renamedRoster (roomId : String) : Proto (List (String × Json)) :=
  look fun _ s =>
    let present := s.players.values.filter fun player =>
      player.rooms.contains roomId && player.status ≠ .invisible && Text.trim player.username ≠ ""
    let calling := present.filter (·.isCallInRoom roomId)
    let byName (value : PlayerSession → Json) : Json :=
      present.foldl (fun fields player => fields.insert player.username (value player)) (.obj [])
    [("players", .arr (present.map (.str ·.username))),
      ("profiles", byName (·.profile.toJson)),
      ("statuses", byName (·.status.toJson)),
      ("platforms", byName (.str ·.platform)),
      ("voicePlayers", .arr (calling.map (.str ·.username))),
      ("callPlayers", .arr (calling.map fun player =>
        .obj [("username", .str player.username), ("clientId", .str player.clientId),
          ("platform", .str player.platform), ("isVoiceChat", .bool player.isVoiceChat),
          ("deafened", .bool player.callDeafened),
          ("media", callMediaJson player.isVoiceChat player.callCamera player.callScreen)]))]

def announceRenamed (roomId : String) : Accounts Unit := handled none do
  let roster ← renamedRoster roomId
  broadcastToRoom roomId <| message 3 <|
    [("ok", .bool true), ("system", .bool true), ("gameId", .str roomId)] ++ roster

def announceRenamedAll : List String → Accounts Unit
  | [] => return ()
  | roomId :: rooms => do
    announceRenamed roomId
    announceRenamedAll rooms

def changeUsername (user : AuthenticatedUser) (newUsername : String) : Api AccountReply := do
  if usernameHitsBlocklist x newUsername then
    throw (.badRequest "Username is not allowed.")
  let updated ← AccountDatabase.changeUsername x user.id newUsername
  let rooms ← ExceptT.lift <| perform fun _ s =>
    let sessions := s.app.players.values.filter (·.userId = updated.id)
    ((sessions.flatMap (·.rooms)).dedup, .renamedSessions updated.id updated.username)
  ExceptT.lift (announceRenamedAll rooms)
  return .user updated

end Auth

end Lqxp
