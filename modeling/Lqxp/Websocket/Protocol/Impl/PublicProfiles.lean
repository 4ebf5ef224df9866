import Lqxp.Core.PublicProfiles
import Lqxp.Websocket.Protocol.Impl.Basic

/-!
This module contains the request for the public profiles of other accounts.
-/

namespace Lqxp

def publicProfileRateLimitWindowMs : Nat := 15000

def publicProfileRateLimitMax : Nat := 20

def publicProfileMaxLookups : Nat := 32

/--
An account that is asked for by its id, its name or both. Neither of them is blank.
-/
structure ProfileLookup where
  userId : Option String
  username : Option String
  deriving DecidableEq

def ProfileLookup.cacheKey (lookup : ProfileLookup) : String :=
  publicProfileCacheKey lookup.userId lookup.username

def lookupField (item : Json) (key other : String) : Option String :=
  ((((item.get? key).or (item.get? other)).bind Json.asStr?).map Text.trim).filter (· ≠ "")

def parseLookup (item : Json) : ProfileLookup :=
  { userId := lookupField item "userId" "id", username := lookupField item "username" "user" }

def profileLookups (d : Json) : List ProfileLookup :=
  let lookups :=
    match d.get? "users" with
    | some (.arr items) => (items.take publicProfileMaxLookups).map parseLookup
    | _ => [parseLookup d]
  lookups.filter fun lookup => lookup.userId.isSome || lookup.username.isSome

/--
The profiles that have been found so far.
-/
structure FoundProfiles where
  users : AssocMap String Json := ∅
  profiles : Json := .obj []
  badges : Json := .obj []

def insertField (fields : Json) (key : String) : Option Json → Json
  | some value => fields.insert key value
  | none => fields

def insertPublicProfilePayload (found : FoundProfiles) (value : Json) : FoundProfiles :=
  let username := Text.trim ((value.getStr? "username").getD "")
  if username = "" then
    found
  else
    { users := found.users.insert username value
      profiles := insertField found.profiles username (value.get? "profile")
      badges := insertField found.badges username (value.get? "badges") }

/--
The profiles that have been found, in the order of their names.
-/
def FoundProfiles.sortedUsers (found : FoundProfiles) : List Json :=
  (found.users.entries.mergeSort fun entry entry' => entry.1 ≤ entry'.1).map (·.2)

variable (x : Externals)

/--
Find the profile of an account that the cache does not have.
-/
def lookupPublicProfile (lookup : ProfileLookup) (now : Nat) : ProfileApi (Option Json) := do
  match ← onApi (AccountDatabase.publicUserByIdOrUsername x lookup.userId lookup.username) with
  | some user => do
    let value := user.publicProfile.toJson
    ExceptT.lift (cachePublicProfile lookup.cacheKey now value)
    return some value
  | none => return none

def findPublicProfiles (now : Nat) : List ProfileLookup → FoundProfiles → ProfileApi FoundProfiles
  | [], found => return found
  | lookup :: lookups, found => do
    match ← ExceptT.lift (cachedPublicProfile lookup.cacheKey now) with
    | some cached => findPublicProfiles now lookups (insertPublicProfilePayload found cached)
    | none =>
      match ← lookupPublicProfile x lookup now with
      | some value => findPublicProfiles now lookups (insertPublicProfilePayload found value)
      | none => findPublicProfiles now lookups found

def requestPublicProfiles (sid : String) (d : Json) : Profiles Bool := do
  let reqId := requestId d
  let player ← onSession (some sid) (getPlayer sid)
  match player.filter fun player => Text.trim player.userId ≠ "" with
  | none => onSession (some sid) (respondError sid 35 "You need to be identified before" reqId)
  | some player =>
  if ← onSession (some sid) <| hitRateLimit ("public-profile:user:" ++ player.userId)
      publicProfileRateLimitMax publicProfileRateLimitWindowMs then
    onSession (some sid) (respondError sid 35 "Rate limit exceeded" reqId)
  else if profileLookups d = [] then
    onSession (some sid) (respondError sid 35 "Missing userId or username" reqId)
  else do
  let now ← onSession (some sid) nowMs
  match ← (findPublicProfiles x now (profileLookups d) {}).run with
  | .error _ => onSession (some sid) (respondError sid 35 "Profile lookup failed" reqId)
  | .ok found =>
    onSession (some sid) <| respondOk sid 35
      [("users", .arr found.sortedUsers), ("profiles", found.profiles), ("badges", found.badges),
        ("ttlMs", .int publicProfileCacheTtlMs)] reqId

end Lqxp
