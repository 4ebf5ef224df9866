import Lqxp.Websocket.Protocol.Impl.Sessions

/-!
This module contains the settings of a session: the parsing of profiles and the handler that changes the
profile, the status and the client id.
-/

namespace Lqxp

def maxProfileAvatarBytes : Nat := 10 * 1024 * 1024

def maxProfileBannerBytes : Nat := 15 * 1024 * 1024

def maxProfileDescriptionChars : Nat := 200

def maxProfilePronounsChars : Nat := 24

section Parsing

def sanitizeProfileText (value : String) (limit : Nat) : String :=
  let kept := (Text.trim value).toList.filter fun c =>
    !Text.isControl c || c = '\n' || c = '\r' || c = '\t'
  String.ofList (kept.take limit)

/--
The type, content and dimensions of an image that a profile carries.
-/
def decodeProfileImage (obj : Json) (maxBytes : Nat)
    : Except String (String × List UInt8 × Nat × Nat) := do
  if !obj.isObject then
    throw "Profile image must be an object"
  let some dataB64 := trimmedStr? obj "dataB64"
    | throw "Profile image missing dataB64"
  if maxBase64Len maxBytes < Text.len dataB64 then
    throw "Profile image too large"
  let some decoded := Base64.decode dataB64
    | throw "Profile image dataB64 is not valid base64"
  if maxBytes < decoded.length then
    throw "Profile image too large"
  let (mimeType, width, height) ←
    detectProfileImage decoded (Text.trim ((obj.getStr? "mimeType").getD ""))
  if width = 0 || height = 0 then
    throw "Profile image dimensions are invalid"
  return (mimeType, decoded, width, height)

def parseProfileImage (raw : Option Json) (maxBytes : Nat)
    : Proto (Except String (Option ProfileImage)) := do
  let some obj := raw.filter (!·.isNull)
    | return .ok none
  match decodeProfileImage obj maxBytes with
  | .error text => return .error text
  | .ok (mimeType, decoded, width, height) =>
  let some file ← storeUploadedBytes (fileExtension "" mimeType) decoded mimeType
    | return .error "Failed to store profile image"
  return .ok (some { file, width, height })

def parseProfileLink (item : Json) : Option ProfileLink := do
  let url := Text.trim (← item.getStr? "url")
  if !Text.startsWith url "https://" || 200 < url.toList.length
      || url.toList.any (fun c => Text.isWhitespace c || Text.isControl c) then
    none
  else
    some { label := sanitizeProfileText ((item.getStr? "label").getD "") 32, url }

/--
A reference to artwork: a secure URL or a bare key. Anything else counts as none.
-/
def parseAssetRef (raw : Option Json) : String :=
  let value := Text.trim ((raw.bind Json.asStr?).getD "")
  let isKey := value.toList.all fun c =>
    Text.isAsciiAlphanumeric c || [':', '_', '-', '.', ' ', '/'].contains c
  if Text.len value ≤ 512 && (Text.startsWith value "https://" || isKey) then value else ""

def parseActivityAssets (raw : Option Json) : Option ProfileActivityAssets := do
  let assets ← raw.filter (·.isObject)
  let large := parseAssetRef (assets.get? "large")
  let small := parseAssetRef (assets.get? "small")
  if large = "" && small = "" then none else some { large, small }

def parseProfileActivity (obj : Json) : Except String ProfileActivity := do
  let kind := Text.trim ((obj.getStr? "kind").getD "")
  if !(["game", "app", "media", "call"].contains kind) then
    throw "Invalid activity kind"
  let text (key : String) : String := sanitizeProfileText ((obj.getStr? key).getD "") 64
  if text "name" = "" then
    throw "Activity name required"
  let startedAt := (((obj.get? "startedAt").or (obj.get? "started_at")).bind Json.asU64?).getD 0
  let appId := Text.trim ((((obj.get? "appId").or (obj.get? "app_id")).bind Json.asStr?).getD "")
  let isAppId := Text.len appId ≤ 64
    && appId.toList.all fun c => Text.isAsciiAlphanumeric c || c = '_' || c = '-'
  return {
    kind, name := text "name", details := text "details", state := text "state", startedAt,
    appId := if isAppId then appId else "", assets := parseActivityAssets (obj.get? "assets") }

/--
The fields of a profile that need no storage. Those that are left out stay as they are.
-/
def parseProfileFields (current : UserProfile) (raw : Json) : Except String UserProfile := do
  let text (key : String) (limit : Nat) (old : String) : String :=
    match raw.get? key with
    | some value => sanitizeProfileText (value.asStr?.getD "") limit
    | none => old
  let links :=
    match raw.get? "links" with
    | some (.arr items) => (items.filterMap parseProfileLink).take 4
    | some _ => []
    | none => current.links
  let activity ←
    match raw.get? "activity" with
    | some .null => pure none
    | some (.obj fields) => some <$> parseProfileActivity (.obj fields)
    | some _ => throw "Activity must be an object or null"
    | none => pure current.activity
  return { current with
    description := text "description" maxProfileDescriptionChars current.description
    pronouns := text "pronouns" maxProfilePronounsChars current.pronouns
    links
    customStatus := text "customStatus" 60 current.customStatus
    activity }

/--
An image of a profile, or the one there is when the field is left out.
-/
def parseImageField (raw : Json) (key : String) (maxBytes : Nat) (current : Option ProfileImage)
    : Proto (Except String (Option ProfileImage)) :=
  match raw.get? key with
  | some value => parseProfileImage (some value) maxBytes
  | none => return .ok current

def parseUserProfile (current : UserProfile) (raw : Option Json) : Proto (Except String UserProfile) := do
  let some raw := raw
    | return .ok current
  if raw.isNull then
    return .ok {}
  else if !raw.isObject then
    return .error "Profile must be an object"
  else
  match ← parseImageField raw "avatar" maxProfileAvatarBytes current.avatar with
  | .error text => return .error text
  | .ok avatar =>
  match ← parseImageField raw "banner" maxProfileBannerBytes current.banner with
  | .error text => return .error text
  | .ok banner =>
  match parseProfileFields current raw with
  | .error text => return .error text
  | .ok profile => return .ok { profile with avatar, banner }

end Parsing

section Settings

/--
What a change of the settings makes of a session. Whoever becomes invisible leaves the call.
-/
def PlayerSession.applySettings (d : Json) (profile : Option UserProfile)
    (status : Option UserPresenceStatus) (player : PlayerSession) : PlayerSession :=
  let player :=
    { player with
      clientId := ((d.getStr? "clientId").map fun id => sanitizeClientId (some id)).getD player.clientId
      platform := ((d.getStr? "platform").map fun name => sanitizePlatform (some name)).getD player.platform
      deleteMessagesOnLeave := (d.getBool? "deleteMessagesOnLeave").getD false
      profile := profile.getD player.profile
      status := status.getD player.status }
  if status = some .invisible then player.hangUp else player

/--
Change the settings of a session. The answer is the session as it was and as it is now.
-/
def changeSettings (sid : String) (d : Json) (profile : Option UserProfile)
    (status : Option UserPresenceStatus) : Proto (Option (PlayerSession × PlayerSession)) :=
  .atom fun _ s =>
    match s.players.lookup sid with
    | none => (none, .quiet, s)
    | some player =>
      let apply := PlayerSession.applySettings d profile status
      (some (player, apply player), .quiet, { s with players := s.players.modify sid apply })

/--
The fields by which a message names the user it is about.
-/
def userFields (gameId : String) (player : PlayerSession) : List (String × Json) :=
  [("gameId", .str gameId), ("user", .str player.username), ("id", .str player.userId),
    ("userId", .str player.userId), ("uuid", .str player.userId)]

def announceProfile (player : PlayerSession) (gameId : String) : Proto Unit := do
  let rosters ← roomRosters gameId none
  broadcastToRoom gameId <| message 26 <|
    userFields gameId player ++ [("profile", player.profile.toJson)] ++ rosters

def announceProfileAll (player : PlayerSession) : List String → Proto Unit
  | [] => return ()
  | gameId :: rooms => do
    announceProfile player gameId
    announceProfileAll player rooms

/--
Tell a room about a new status, and that the call is over when the status ended it.
-/
def announceStatus (player : PlayerSession) (wasVoiceChat : Bool) (gameId : String) : Proto Unit := do
  let rosters ← roomRosters gameId none
  broadcastToRoom gameId <| message 27 <|
    userFields gameId player
      ++ [("status", player.status.toJson), ("visible", .bool (player.status ≠ .invisible)),
        ("clientId", .str player.clientId), ("platform", .str player.platform),
        ("profile", player.profile.toJson)]
      ++ rosters
  if player.status = .invisible && wasVoiceChat then
    broadcastToRoom gameId <| message 110
      [("gameId", .str gameId), ("user", .str player.username), ("status", player.status.toJson),
        ("isVoiceChat", .bool false), ("clientId", .str player.clientId),
        ("platform", .str player.platform), ("media", callMediaJson false false false)]
  else
    return ()

def announceStatusAll (player : PlayerSession) (wasVoiceChat : Bool) : List String → Proto Unit
  | [] => return ()
  | gameId :: rooms => do
    announceStatus player wasVoiceChat gameId
    announceStatusAll player wasVoiceChat rooms

/--
Tell the other devices of an account when the client id or the platform of a session has changed.
-/
def announceSyncPeer (sid : String) (old player : PlayerSession) : Proto Unit :=
  if player.clientId ≠ "" && player.clientId ≠ old.clientId then
    broadcastSyncPeerEvent player.userId "join" player.clientId player.platform (some sid)
  else if player.clientId ≠ "" && player.platform ≠ old.platform then
    broadcastSyncPeerEvent player.userId "update" player.clientId player.platform (some sid)
  else
    return ()

def persistProfile (player : PlayerSession) (changed : Bool) : Proto Unit :=
  if changed then do
    let _ ← updateProfile player.userId player.profile
  else
    return ()

def persistStatus (player : PlayerSession) (changed : Bool) : Proto Unit :=
  if changed then do
    let _ ← updateStatus player.userId player.status
  else
    return ()

/--
The part of a change of the settings that follows the change of the session.
-/
def completeSettings (sid : String) (d : Json) (profile : Option UserProfile)
    (status : Option UserPresenceStatus) (old player : PlayerSession) : Proto Bool := do
  persistProfile player profile.isSome
  persistStatus player status.isSome
  let _ ← respondOk sid 8
    [("deleteMessagesOnLeave", .bool player.deleteMessagesOnLeave),
      ("profile", (profile.map UserProfile.toJson).getD .null), ("status", player.status.toJson)]
    (requestId d)
  announceProfileAll player (if profile.isSome && player.status ≠ .invisible then player.rooms else [])
  announceStatusAll player old.isVoiceChat
    (if status.isSome && player.status ≠ old.status then player.rooms else [])
  announceSyncPeer sid old player
  return false

def updateClientSettings (sid : String) (d : Json) : Proto Bool := do
  let reqId := requestId d
  if ← hitRateLimit ("settings:session:" ++ sid) 30 10000 then
    respondError sid 8 "Settings update rate limit exceeded" reqId
  else do
  let current ← look fun _ s => ((s.players.lookup sid).map (·.profile)).getD {}
  let raw := d.get? "profile"
  match ← parseUserProfile current raw with
  | .error text => respondError sid 8 text reqId
  | .ok parsed =>
  let profile := raw.map fun _ => parsed
  let status := ((d.get? "status").or (d.get? "presenceStatus")).map parseUserStatus
  match ← changeSettings sid d profile status with
  | none => respondError sid 8 "You need to be identified before" reqId
  | some (old, player) => completeSettings sid d profile status old player

end Settings

end Lqxp
