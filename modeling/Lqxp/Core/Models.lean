import Lqxp.Data.AssocMap
import Lqxp.Data.Json

/-!
This module contains the records that the server keeps and sends, with their JSON form.
-/

namespace Lqxp

inductive UserPresenceStatus where
  | online
  | invisible
  | dnd
  deriving DecidableEq

inductive RoomKind where
  | classic
  | community
  deriving DecidableEq

inductive RoomRole where
  | member
  | moderator
  | subAdministrator
  | administrator
  deriving DecidableEq

structure StoredFile where
  id : String
  url : String
  size : Nat
  mimeType : String
  deriving DecidableEq

structure RoomIcon where
  file : StoredFile
  deriving DecidableEq

structure ModeratorPermissions where
  canBan : Bool := true
  canKick : Bool := true
  canMute : Bool := true
  canDelete : Bool := true
  deriving DecidableEq

/--
The default values are those of the record that stands for a room nobody has stored yet.
-/
structure RoomRecord where
  roomId : String
  title : String := ""
  icon : Option RoomIcon := none
  members : List String := []
  kind : RoomKind := .classic
  description : String := ""
  ownerId : Option String := none
  chatLocked : Bool := false
  roles : AssocMap String RoomRole := ∅
  banned : AssocMap String String := ∅
  timeouts : AssocMap String Nat := ∅
  modPermissions : ModeratorPermissions := {}
  callsEnabled : Bool := true

structure ProfileImage where
  file : StoredFile
  width : Nat
  height : Nat
  deriving DecidableEq

structure ProfileActivityAssets where
  large : String := ""
  small : String := ""
  deriving DecidableEq

structure ProfileActivity where
  kind : String := ""
  name : String := ""
  details : String := ""
  state : String := ""
  startedAt : Nat := 0
  appId : String := ""
  assets : Option ProfileActivityAssets := none
  deriving DecidableEq

structure ProfileLink where
  label : String
  url : String
  deriving DecidableEq

structure UserProfile where
  avatar : Option ProfileImage := none
  banner : Option ProfileImage := none
  description : String := ""
  pronouns : String := ""
  links : List ProfileLink := []
  customStatus : String := ""
  activity : Option ProfileActivity := none
  deriving DecidableEq

structure MessageReaction where
  emoji : String
  users : List String
  count : Nat
  deriving DecidableEq

structure Attachment where
  id : String
  url : String
  filename : String
  mimeType : String
  size : Nat
  deriving DecidableEq

structure EncryptedPayload where
  v : Nat
  alg : String
  iv : String
  salt : String
  n : Option Nat
  senderDeviceId : String
  senderSigningKey : Option Json
  signature : String
  ciphertext : String
  roomId : Option String

structure LinkPreview where
  url : String
  title : String := ""
  description : String := ""
  image : String := ""
  siteName : String := ""
  deriving DecidableEq

structure ChatMessageRecord where
  messageId : String
  roomId : String
  user : String
  username : String
  userId : String
  text : String
  timestamp : Nat
  profile : UserProfile := {}
  editedAt : Option Nat := none
  system : Bool := false
  reactions : List MessageReaction := []
  replyToMessageId : Option String := none
  attachment : Option Attachment := none
  encrypted : Option EncryptedPayload := none
  preview : Option LinkPreview := none
  deleted : Bool := false
  deletedBy : String := ""
  deletedByModerator : Bool := false

section ToJson

/--
An object without the fields that the serializer skips.
-/
def object (fields : List (Option (String × Json))) : Json := .obj (fields.filterMap id)

def field (key : String) (value : Json) : Option (String × Json) := some (key, value)

def skipEmpty (key value : String) : Option (String × Json) :=
  if value = "" then none else some (key, .str value)

def skipNone (key : String) (value : Option Json) : Option (String × Json) := value.map (key, ·)

def mapToJson (toJson : ν → Json) (m : AssocMap String ν) : Json :=
  .obj (m.entries.map fun x => (x.1, toJson x.2))

def UserPresenceStatus.toJson : UserPresenceStatus → Json
  | .online => .str "online"
  | .invisible => .str "invisible"
  | .dnd => .str "dnd"

def RoomKind.toJson : RoomKind → Json
  | .classic => .str "classic"
  | .community => .str "community"

def RoomRole.toJson : RoomRole → Json
  | .member => .str "member"
  | .moderator => .str "moderator"
  | .subAdministrator => .str "subAdmin"
  | .administrator => .str "administrator"

def StoredFile.fields (file : StoredFile) : List (Option (String × Json)) :=
  [field "id" (.str file.id), field "url" (.str file.url), field "size" (.int file.size),
    field "mimeType" (.str file.mimeType)]

def RoomIcon.toJson (icon : RoomIcon) : Json := object icon.file.fields

def ModeratorPermissions.toJson (perms : ModeratorPermissions) : Json :=
  object [field "canBan" (.bool perms.canBan), field "canKick" (.bool perms.canKick),
    field "canMute" (.bool perms.canMute), field "canDelete" (.bool perms.canDelete)]

def RoomRecord.toJson (room : RoomRecord) : Json :=
  object [
    field "roomId" (.str room.roomId),
    skipEmpty "title" room.title,
    skipNone "icon" (room.icon.map RoomIcon.toJson),
    field "members" (.arr (room.members.map .str)),
    field "kind" room.kind.toJson,
    skipEmpty "description" room.description,
    skipNone "ownerId" (room.ownerId.map .str),
    field "chatLocked" (.bool room.chatLocked),
    field "roles" (mapToJson RoomRole.toJson room.roles),
    field "banned" (mapToJson .str room.banned),
    field "timeouts" (mapToJson (fun n : Nat => .int n) room.timeouts),
    field "modPermissions" room.modPermissions.toJson,
    field "callsEnabled" (.bool room.callsEnabled)]

def ProfileImage.toJson (image : ProfileImage) : Json :=
  object (image.file.fields ++ [field "width" (.int image.width), field "height" (.int image.height)])

def ProfileActivity.toJson (activity : ProfileActivity) : Json :=
  object [
    field "kind" (.str activity.kind),
    field "name" (.str activity.name),
    skipEmpty "details" activity.details,
    skipEmpty "state" activity.state,
    if activity.startedAt = 0 then none else field "started_at" (.int activity.startedAt),
    skipEmpty "appId" activity.appId,
    skipNone "assets" (activity.assets.map fun assets =>
      object [skipEmpty "large" assets.large, skipEmpty "small" assets.small])]

def ProfileLink.toJson (link : ProfileLink) : Json :=
  object [field "label" (.str link.label), field "url" (.str link.url)]

def UserProfile.toJson (profile : UserProfile) : Json :=
  object [
    skipNone "avatar" (profile.avatar.map ProfileImage.toJson),
    skipNone "banner" (profile.banner.map ProfileImage.toJson),
    skipEmpty "description" profile.description,
    skipEmpty "pronouns" profile.pronouns,
    if profile.links = [] then none else field "links" (.arr (profile.links.map ProfileLink.toJson)),
    skipEmpty "customStatus" profile.customStatus,
    skipNone "activity" (profile.activity.map ProfileActivity.toJson)]

def MessageReaction.toJson (reaction : MessageReaction) : Json :=
  object [field "emoji" (.str reaction.emoji), field "users" (.arr (reaction.users.map .str)),
    field "count" (.int reaction.count)]

def Attachment.toJson (attachment : Attachment) : Json :=
  object [field "id" (.str attachment.id), field "url" (.str attachment.url),
    field "filename" (.str attachment.filename), field "mimeType" (.str attachment.mimeType),
    field "size" (.int attachment.size)]

def EncryptedPayload.toJson (payload : EncryptedPayload) : Json :=
  object [
    field "v" (.int payload.v),
    field "alg" (.str payload.alg),
    field "iv" (.str payload.iv),
    skipEmpty "salt" payload.salt,
    skipNone "n" (payload.n.map fun n => .int n),
    skipEmpty "senderDeviceId" payload.senderDeviceId,
    skipNone "senderSigningKey" payload.senderSigningKey,
    skipEmpty "signature" payload.signature,
    field "ciphertext" (.str payload.ciphertext),
    skipNone "roomId" (payload.roomId.map .str)]

def LinkPreview.toJson (preview : LinkPreview) : Json :=
  object [field "url" (.str preview.url), skipEmpty "title" preview.title,
    skipEmpty "description" preview.description, skipEmpty "image" preview.image,
    skipEmpty "siteName" preview.siteName]

def ChatMessageRecord.toJson (message : ChatMessageRecord) : Json :=
  object [
    field "messageId" (.str message.messageId),
    field "roomId" (.str message.roomId),
    field "user" (.str message.user),
    field "username" (.str message.username),
    skipEmpty "userId" message.userId,
    field "text" (.str message.text),
    field "timestamp" (.int message.timestamp),
    field "profile" message.profile.toJson,
    skipNone "editedAt" (message.editedAt.map fun n => .int n),
    field "system" (.bool message.system),
    field "reactions" (.arr (message.reactions.map MessageReaction.toJson)),
    skipNone "replyToMessageId" (message.replyToMessageId.map .str),
    skipNone "attachment" (message.attachment.map Attachment.toJson),
    skipNone "encrypted" (message.encrypted.map EncryptedPayload.toJson),
    skipNone "preview" (message.preview.map LinkPreview.toJson),
    if message.deleted then field "deleted" (.bool true) else none,
    skipEmpty "deletedBy" message.deletedBy,
    if message.deletedByModerator then field "deletedByModerator" (.bool true) else none]

end ToJson

end Lqxp
