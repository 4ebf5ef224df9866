import Lqxp.Core.Accounts

/-!
This module contains the cache of the public profiles, and the state of the server together with it.
-/

namespace Lqxp

def publicProfileCacheTtlMs : Nat := 5 * 60 * 1000

/--
What everybody may see of an account.
-/
structure PublicProfile where
  userId : String
  username : String
  profile : UserProfile
  badges : List String
  createdAt : Nat

def PublicProfile.toJson (shown : PublicProfile) : Json :=
  .obj [("userId", .str shown.userId), ("id", .str shown.userId), ("username", .str shown.username),
    ("profile", shown.profile.toJson), ("badges", .arr (shown.badges.map .str)),
    ("createdAt", .int shown.createdAt)]

def AuthenticatedUser.publicProfile (user : AuthenticatedUser) : PublicProfile :=
  { userId := user.id, username := user.username, profile := user.profile, badges := user.badges,
    createdAt := user.createdAt }

structure CachedPublicProfile where
  expiresAtMs : Nat
  value : Json

structure ProfileState where
  account : AccountState
  publicProfileCache : AssocMap String CachedPublicProfile := ∅

namespace ProfileState

variable (s : ProfileState)

abbrev players : AssocMap String PlayerSession := s.account.app.players

abbrev accounts : AccountDatabase := s.account.app.accounts

def withCache (publicProfileCache : AssocMap String CachedPublicProfile) : ProfileState :=
  { s with publicProfileCache }

end ProfileState

inductive ProfileLabel where
  | quiet
  /-- A step of a service that knows nothing of the cache. -/
  | account (label : AccountLabel)
  | badged (userId : String) (customBadges : List String)

/--
A piece of a service that may use the cache.
-/
abbrev Profiles (α : Type) := Prog AccountEnv ProfileState ProfileLabel α

abbrev ProfileApi (α : Type) := ExceptT ApiError (Prog AccountEnv ProfileState ProfileLabel) α

/--
The state without the cache, for the steps of the other services.
-/
def accountView : Prog.View AccountEnv AccountState AccountLabel AccountEnv ProfileState ProfileLabel where
  env e := e
  get := ProfileState.account
  put account s := { s with account }
  tag _ l := .account l
  get_put _ _ := rfl

def onAccounts (p : Accounts α) : Profiles α := p.zoom accountView

def onApi (p : Api α) : ProfileApi α := ExceptT.mk (onAccounts p.run)

def onSession (sid : Option String) (p : Proto α) : Profiles α := onAccounts (handled sid p)

section Cache

def publicProfileCacheKey (userId username : Option String) : String :=
  match (userId.map Text.trim).filter (· ≠ "") with
  | some userId => "id:" ++ userId
  | none => "username:" ++ Text.toAsciiLower (Text.trim (username.getD ""))

def cachedPublicProfile (key : String) (now : Nat) : Profiles (Option Json) :=
  .atom fun _ s =>
    (((s.publicProfileCache.lookup key).filter (now < ·.expiresAtMs)).map (·.value), .quiet, s)

/--
Keep a value. A cache that has grown large loses what has expired.
-/
def cachePublicProfile (key : String) (now : Nat) (value : Json) : Profiles Unit :=
  .atom fun _ s =>
    let cache :=
      if 10000 < s.publicProfileCache.size then
        s.publicProfileCache.retain fun _ entry => now < entry.expiresAtMs
      else
        s.publicProfileCache
    ((), .quiet, s.withCache (cache.insert key { expiresAtMs := now + publicProfileCacheTtlMs, value }))

def invalidatePublicProfileCache (userId username : Option String) : Profiles Unit :=
  .atom fun _ s =>
    let cache := s.publicProfileCache.retain fun key _ =>
      !(userId.any fun id => key = "id:" ++ Text.trim id)
        && !(username.any fun name => key = "username:" ++ Text.toAsciiLower (Text.trim name))
    ((), .quiet, s.withCache cache)

end Cache

section Lookup

variable (x : Externals)

namespace AccountDatabase

def publicUserByIdField (userId : Option String) : Api (Option PublicUser) :=
  match (userId.map Text.trim).filter (· ≠ "") with
  | some userId => do
    let account ← findUserById userId
    return account.map (·.publicUser)
  | none => return none

def publicUserByUsernameField (username : Option String) : Api (Option PublicUser) :=
  match (username.map Text.trim).filter (· ≠ "") with
  | some username => do
    let account ← findUserByUsername x username
    return account.map (·.publicUser)
  | none => return none

def publicUserByIdOrUsername (userId username : Option String) : Api (Option PublicUser) := do
  match ← publicUserByIdField userId with
  | some user => return some user
  | none => publicUserByUsernameField x username

end AccountDatabase

end Lookup

end Lqxp
