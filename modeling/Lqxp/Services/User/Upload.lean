import Lqxp.Services.Room
import Lqxp.Websocket.Protocol.Impl.Profile

/-!
This module contains the upload of an avatar or a banner over HTTP.
-/

namespace Lqxp

inductive ProfileImageKind where
  | avatar
  | banner
  deriving DecidableEq

namespace ProfileImageKind

def parse (kind : String) : Option ProfileImageKind :=
  match Text.trim kind with
  | "avatar" => some .avatar
  | "banner" => some .banner
  | _ => none

def name : ProfileImageKind → String
  | .avatar => "avatar"
  | .banner => "banner"

def maxBytes : ProfileImageKind → Nat
  | .avatar => maxProfileAvatarBytes
  | .banner => maxProfileBannerBytes

end ProfileImageKind

namespace UserProfile

def image (profile : UserProfile) : ProfileImageKind → Option ProfileImage
  | .avatar => profile.avatar
  | .banner => profile.banner

def withImage (profile : UserProfile) (kind : ProfileImageKind) (image : ProfileImage) : UserProfile :=
  match kind with
  | .avatar => { profile with avatar := some image }
  | .banner => { profile with banner := some image }

end UserProfile

/--
The checks on an uploaded image. The answer is its extension, type, width and height.
-/
def UploadedFile.checkImage (file : UploadedFile) (kind : ProfileImageKind)
    : Except String (String × String × Nat × Nat) := do
  if file.bytes = [] then
    throw "Missing file."
  if kind.maxBytes < file.bytes.length then
    throw "Profile image too large."
  let (mimeType, width, height) ← detectProfileImage file.bytes file.contentType
  return (fileExtension file.fileName mimeType, mimeType, width, height)

/--
The copy of the profile of an account that its sessions give, the last one of them in an arbitrary order. Without
a session it is the given one.
-/
def AppState.profileCopy (s : AppState) (e : Env) (userId : String) (profile : UserProfile) : UserProfile :=
  ((pickFrom e (s.players.values.filter (·.userId = userId))).map (·.profile)).getD profile

/--
Put an image into the profiles of the sessions of an account. The answer is the copy that one of them gives, and
the sessions.
-/
def shareImage (userId : String) (profile : UserProfile) (kind : ProfileImageKind) (image : ProfileImage)
    : Proto (UserProfile × List PlayerSession) :=
  .atom fun e s =>
    let players := s.players.mapValues fun _ player =>
      if player.userId = userId then { player with profile := player.profile.withImage kind image } else player
    (((s.profileCopy e userId profile).withImage kind image, players.values.filter (·.userId = userId)), .quiet,
      { s with players })

def broadcastProfile (player : PlayerSession) (profile : UserProfile) (gameId : String) : Proto Unit := do
  let rosters ← roomRosters gameId none
  broadcastToRoom gameId <| message 26 <|
    [("gameId", .str gameId), ("user", .str player.username), ("profile", profile.toJson)] ++ rosters
      ++ [("clientId", .str player.clientId), ("platform", .str player.platform)]

def broadcastProfileIn (player : PlayerSession) (profile : UserProfile) : List String → Proto Unit
  | [] => return ()
  | gameId :: rooms => do
    broadcastProfile player profile gameId
    broadcastProfileIn player profile rooms

def broadcastProfileUpdate (profile : UserProfile) : List PlayerSession → Proto Unit
  | [] => return ()
  | player :: players => do
    broadcastProfileIn player profile (if player.status = .invisible then [] else player.rooms)
    broadcastProfileUpdate profile players

def removeProfileImage : Option ProfileImage → Proto Unit
  | some image => removeUploadedFile image.file.id
  | none => return ()

namespace Http

/--
The part of an upload that follows the storing of the file.
-/
def finishProfileImage (user : AuthenticatedUser) (kind : ProfileImageKind) (image : ProfileImage)
    : Proto (Except String Json) := do
  let (profile, sessions) ← shareImage user.id user.profile kind image
  removeProfileImage (user.profile.image kind)
  if ← updateProfile user.id profile then
    broadcastProfileUpdate profile sessions
    return .ok (.obj [("ok", .bool true), ("profile", profile.toJson), (kind.name, image.toJson)])
  else
    return .error "Profile update"

def uploadProfileImage (user : AuthenticatedUser) (kind : String) (file : UploadedFile)
    : Proto (Except String Json) := do
  let some kind := ProfileImageKind.parse kind
    | return .error "Invalid profile image kind."
  match file.checkImage kind with
  | .error text => return .error text
  | .ok (extension, mimeType, width, height) =>
  let some stored ← storeUploadedBytes extension file.bytes mimeType
    | return .error "Failed to store file"
  finishProfileImage user kind { file := stored, width, height }

end Http

end Lqxp
