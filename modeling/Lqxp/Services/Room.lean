import Lqxp.Websocket.Protocol.Impl.Rooms

/-!
This module contains the upload of a room icon over HTTP.
-/

namespace Lqxp

def maxHttpRoomIconBytes : Nat := 10 * 1024 * 1024

/--
The file part of a multipart request; without one everything is empty.
-/
structure UploadedFile where
  fileName : String := ""
  contentType : String := ""
  bytes : List UInt8 := []

/--
The checks on an uploaded icon. The answer is the extension and the type.
-/
def UploadedFile.check (file : UploadedFile) : Except String (String × String) := do
  if file.bytes = [] then
    throw "Missing file."
  if maxHttpRoomIconBytes < file.bytes.length then
    throw "Room icon too large."
  let (mimeType, _, _) ← detectProfileImage file.bytes file.contentType
  return (fileExtension file.fileName mimeType, mimeType)

namespace Http

def uploadRoomIcon (userId roomId : String) (file : UploadedFile) : Proto (Except String Json) := do
  let roomId := Text.trim roomId
  if roomId = "" then
    return .error "Invalid room."
  else do
  let isMember ← look fun _ s =>
    s.players.values.any fun player => player.userId = userId && player.rooms.contains roomId
  if !isMember then
    return .error "You are not in this room."
  else do
  let room ← roomRecord roomId
  if room.any fun room => room.kind = .community && !isRoomAdmin room userId then
    return .error "You are not allowed to change this room."
  else do
  match file.check with
  | .error text => return .error text
  | .ok (extension, mimeType) =>
  let previousIcon ← roomIcon roomId
  removeIconFile previousIcon
  let some stored ← storeUploadedBytes extension file.bytes mimeType
    | return .error "Failed to store file"
  let icon : RoomIcon := { file := stored }
  if ← setRoomIcon roomId icon then
    let some _ ← syncRoomRecord roomId
      | return .error "Sync room record"
    let stored ← roomRecord roomId
    let members ← roomUsernames roomId none
    let room := stored.getD { defaultRecord roomId with icon := some icon, members }
    broadcastToRoom roomId <| message 32
      [("ok", .bool true), ("system", .bool true), ("gameId", .str roomId), ("room", room.toJson)]
    return .ok (.obj [("ok", .bool true), ("icon", icon.toJson), ("room", room.toJson)])
  else
    return .error "Failed to persist icon"

end Http

end Lqxp
