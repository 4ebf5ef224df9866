import Lqxp.Core.Database
import Lqxp.Services.User

/-!
This module contains the parsing of what requests carry besides plain fields: attachments, encrypted
payloads, room icons and moderator permissions.
-/

namespace Lqxp

def maxFilenameLen : Nat := 128

def maxAttachmentBytes : Nat := 25 * 1024 * 1024

def maxRoomIconUploadBytes : Nat := 5 * 1024 * 1024

/--
The greatest length of the Base64 text of a file with the given size.
-/
def maxBase64Len (maxBytes : Nat) : Nat := (maxBytes + 2) / 3 * 4 + 4

/--
A text field without the white space around it, unless that leaves nothing.
-/
def trimmedStr? (d : Json) (key : String) : Option String :=
  ((d.getStr? key).map Text.trim).filter (· ≠ "")

section Attachment

def decodeAttachment (obj : Json) : Except String (String × String × List UInt8) := do
  if !obj.isObject then
    throw "Attachment must be an object"
  let some dataB64 := obj.getStr? "dataB64"
    | throw "Attachment missing dataB64"
  if dataB64 = "" then
    throw "Attachment dataB64 is empty"
  if maxBase64Len maxAttachmentBytes < Text.len dataB64 then
    throw "Attachment too large (25MB max)"
  let some decoded := Base64.decode dataB64
    | throw "Attachment dataB64 is not valid base64"
  if maxAttachmentBytes < decoded.length then
    throw "Attachment too large (25MB max)"
  let filename := sanitizeFilename ((obj.getStr? "filename").getD "file") "file" maxFilenameLen
  let mimeType := Text.takeChars 96 ((trimmedStr? obj "mimeType").getD "application/octet-stream")
  return (filename, mimeType, decoded)

def parseAttachment (raw : Option Json) : Proto (Except String (Option Attachment)) := do
  let some obj := raw.filter (!·.isNull)
    | return .ok none
  match decodeAttachment obj with
  | .error text => return .error text
  | .ok (filename, mimeType, decoded) =>
  let some stored ← storeUploadedBytes ((Text.afterLast '.' filename).getD "") decoded mimeType
    | return .error "Failed to store attachment"
  return .ok <| some
    { id := stored.id, url := stored.url, filename, mimeType, size := decoded.length }

end Attachment

section Encrypted

/--
A text field that has to be there, cut to the given length.
-/
def requireStr (obj : Json) (key text : String) (limit : Nat) : Except String String :=
  match trimmedStr? obj key with
  | some value => .ok (Text.takeChars limit value)
  | none => .error text

def parseEncryptedPayload (raw : Option Json) : Except String (Option EncryptedPayload) := do
  let some obj := raw.filter (!·.isNull)
    | return none
  if !obj.isObject then
    throw "Encrypted payload must be an object"
  let some v := obj.getU64? "v"
    | throw "Encrypted payload missing version"
  if v ≠ 2 then
    throw "Unsupported encrypted payload version"
  let alg ← requireStr obj "alg" "Encrypted payload missing algorithm" 32
  let iv ← requireStr obj "iv" "Encrypted payload missing iv" 128
  let salt ← requireStr obj "salt" "Encrypted payload missing salt" 128
  let some n := (obj.getU64? "n").filter (0 < ·)
    | throw "Encrypted payload missing ratchet counter"
  let senderDeviceId ← requireStr obj "senderDeviceId" "Encrypted payload missing sender device" 64
  let some senderSigningKey := (obj.get? "senderSigningKey").filter (·.isObject)
    | throw "Encrypted payload missing sender signing key"
  if 2048 < Text.len senderSigningKey.render then
    throw "Encrypted payload signing key too large"
  let signature ← requireStr obj "signature" "Encrypted payload missing signature" 256
  let some ciphertext := trimmedStr? obj "ciphertext"
    | throw "Encrypted payload missing ciphertext"
  if 18 * 1024 * 1024 < Text.len ciphertext then
    throw "Encrypted payload too large"
  return some
    { v := 2, alg, iv, salt, n := some n, senderDeviceId, senderSigningKey := some senderSigningKey,
      signature, ciphertext, roomId := (trimmedStr? obj "roomId").map (Text.takeChars 64) }

end Encrypted

section RoomIcon

/--
The extension, type and content of the file that an upload of a room icon carries.
-/
def decodeRoomIcon (obj : Json) : Except String (String × String × List UInt8) := do
  if !obj.isObject then
    throw "Invalid file payload"
  let some dataB64 := trimmedStr? obj "dataB64"
    | throw "Missing file data"
  if maxBase64Len maxRoomIconUploadBytes < Text.len dataB64 then
    throw "Room icon too large (5MB max)"
  let some decoded := Base64.decode dataB64
    | throw "Invalid file base64"
  if maxRoomIconUploadBytes < decoded.length then
    throw "Room icon too large (5MB max)"
  let declaredMime := Text.trim ((obj.getStr? "mimeType").getD "")
  let (mimeType, _, _) ← detectProfileImage decoded declaredMime
  let filename :=
    sanitizeFilename ((obj.getStr? "filename").getD "room-icon") "room-icon" maxFilenameLen
  return (fileExtension filename mimeType, mimeType, decoded)

def removeIconFile : Option RoomIcon → Proto Unit
  | some icon => removeUploadedFile icon.file.id
  | none => return ()

/--
Store the icon that a request carries, if it carries one. The file of the icon before it is removed.
-/
def storeRoomIconFromPayload (d : Json) (roomId : String)
    : Proto (Except String (Option RoomIcon)) := do
  let some obj := (d.get? "file").filter (!·.isNull)
    | return .ok none
  match decodeRoomIcon obj with
  | .error text => return .error text
  | .ok (extension, mimeType, decoded) =>
  let previousIcon ← roomIcon roomId
  removeIconFile previousIcon
  let some file ← storeUploadedBytes extension decoded mimeType
    | return .error "Failed to save icon"
  return .ok (some { file })

end RoomIcon

/--
Moderator permissions as an object or as a list in the order of the fields, with the default for each
one that is left out. A field of another type makes the whole payload invalid.
-/
def parseModPermissions (raw : Option Json) : Option ModeratorPermissions := do
  let flag (i : Nat) (key : String) : Option Bool :=
    match raw with
    | some (.obj fields) => flagOrDefault (fields.lookup key)
    | some (.arr elems) => if elems.length ≤ 4 then flagOrDefault elems[i]? else none
    | _ => none
  let canBan ← flag 0 "canBan"
  let canKick ← flag 1 "canKick"
  let canMute ← flag 2 "canMute"
  let canDelete ← flag 3 "canDelete"
  return { canBan, canKick, canMute, canDelete }
where
  flagOrDefault : Option Json → Option Bool
    | none => some true
    | some value => value.asBool?

end Lqxp
