import Lqxp.Accounts.System
import Lqxp.Services.Phantom.Prekeys
import Lqxp.Services.Profiles
import Lqxp.Websocket.Protocol.Impl.Signals
import Lqxp.Websocket.Protocol.Impl.Sync

/-!
This module contains the way of a frame through the server: the gate, the table of the operations and the loop that
serves one connection. All connections and services together are one system.
-/

namespace Lqxp

structure SocketPayload where
  op : Nat
  d : Json := .null

variable (n : Deployment)

/--
The operations that a session may use whatever has become of its account.
-/
def ungatedOps : List Nat := [0, 1, 2, 6]

/--
The operations that concern nothing but the app itself.
-/
def protoHandler : Nat → Option (String → Json → Proto Bool)
  | 2 => some identifyPlayer
  | 3 => some joinGame
  | 4 => some leaveGame
  | 5 => some reportKill
  | 7 => some sendChatMessage
  | 8 => some updateClientSettings
  | 18 => some sendRoomHistory
  | 19 => some toggleMessageReaction
  | 21 => some deleteMessage
  | 28 => some requestLinkPreview
  | 29 => some editMessage
  | 31 => some updateTypingState
  | 32 => some uploadRoomIcon
  | 33 => some updateRoomTitle
  | 40 => some createRoom
  | 41 => some updateRoomDescription
  | 42 => some setMemberRole
  | 43 => some banMember
  | 44 => some unbanMember
  | 45 => some kickMember
  | 46 => some timeoutMember
  | 47 => some transferOwnership
  | 48 => some setChatLock
  | 49 => some setModeratorPermissions
  | 50 => some setCallsEnabled
  | 51 => some setCallAccess
  | 52 => some unmuteMember
  | 55 => some relayRoomSignal
  | 57 => some deleteRoomOp
  | 60 => some relayCloudSyncOp
  | 62 => some syncPeersOp
  | 98 => some updateVoiceChat
  | 100 => some updateMuteState
  | 101 => some adminStatus
  | 104 => some adminBroadcast
  | 105 => some statsQuery
  | 110 => some updateCallMediaState
  | 111 => some relayCallSignal
  | 112 => some updateCallDeafenedState
  | _ => none

/--
What a connection gets without its session being looked at.
-/
def directAnswer (sid : String) (payload : SocketPayload) : Node Bool := do
  match payload.op with
  | 0 => sendJson sid (.obj [("op", .int 0), ("d", payload.d)])
  | 1 => sendJson sid (withRequestId (message 1 [("ok", .bool true)]) (requestId payload.d))
  | 6 =>
    let version := (n.latestVersion.map Json.str).getD .null
    sendJson sid (withRequestId (message 6 [("v", version)]) (requestId payload.d))
  | _ => sendJson sid (message 0 [("error", .str "Unknown operation.")])
  return false

def runOp (sid : String) (payload : SocketPayload) : Node Outcome :=
  match payload.op with
  | 35 => outcomeOf (onProfiles (requestPublicProfiles n.externals sid payload.d))
  | 36 => Phantom.publishPrekeyOp n.signatures sid payload.d
  | 37 => outcomeOf (Phantom.fetchPrekeyOp n.externals sid payload.d)
  | 39 => Phantom.blockUpdateOp n.crypto sid payload.d
  | 53 => outcomeOf (onPolls (votePoll n.pollDigest n.pollSalt sid payload.d))
  | op =>
    match protoHandler op with
    | some handler => outcomeOf (onSocket sid (handler sid payload.d))
    | none => outcomeOf (directAnswer n sid payload)

/--
Whether a frame comes through the gate in front of most operations.
-/
def passesGate (sid : String) (op : Nat) : Node Bool :=
  if ungatedOps.contains op then
    return true
  else
    onProfiles (onAccounts (revalidateSession sid))

/--
Serve a frame that has been read. What cannot be read is passed over.
-/
def processMessage (sid : String) : Option SocketPayload → Node Outcome
  | none => return .goesOn
  | some payload => do
    if ← passesGate sid payload.op then
      runOp n sid payload
    else
      sendJson sid (message 999 [("reason", .str "Session expired.")])
      return .closes

/--
What a connection receives.
-/
inductive Frame where
  | text (payload : Option SocketPayload)
  | ping
  /-- The client goes, fails or stays silent for too long. -/
  | close

/--
How the task of a request ends.
-/
inductive Ending where
  | finished
  | panicked
  deriving DecidableEq

/--
Serve the frames of a connection until it ends. A connection without further frames has ended.
-/
def serveFrames (sid : String) : List Frame → Node Ending
  | [] | .close :: _ => return .finished
  | .ping :: frames => serveFrames sid frames
  | .text payload :: frames => do
    if ← onSocket sid (hitRateLimit ("ws-msg:session:" ++ sid) 1200 60000) then
      sendJson sid (message 0 [("error", .str "Rate limited.")])
      return .finished
    else
      match ← processMessage n sid payload with
      | .goesOn => serveFrames sid frames
      | .closes => return .finished
      | .panics => return .panicked

/--
The life of a connection. Nobody takes the session away when the task panics.
-/
def handleSocket (sid : String) (frames : List Frame) : Node Ending := do
  if ← onSocket sid (registerConnection sid) then
    sendJson sid (message 10 [("heartbeat_interval", .int n.heartbeatInterval)])
    let ending ← serveFrames n sid frames
    if ending = .panicked then
      return .panicked
    else
      onSocket sid (disconnectPlayer sid)
      return .finished
  else
    return .finished

section System

def AccountRequest.offSocket : AccountRequest → Bool
  | .websocket req => req.sid?.isNone
  | .revalidate _ => false
  | _ => true

def ProfileRequest.offSocket : ProfileRequest → Bool
  | .lookup .. | .settings .. => false
  | _ => true

/--
What a server has to do: a connection to serve, a service over HTTP or a task that has been spawned.
-/
inductive NodeRequest where
  | socket (sid : String) (frames : List Frame)
  | account (req : AccountRequest) (hreq : req.offSocket = true)
  | profile (req : ProfileRequest) (hreq : req.offSocket = true)
  | prekey (username : String)

def NodeRequest.handle : NodeRequest → Node Ending
  | .socket sid frames => handleSocket n sid frames
  | .account req _ => do
    let _ ← onProfiles (onAccounts (req.handle n.externals))
    return .finished
  | .profile req _ => do
    onProfiles (req.handle n.externals)
    return .finished
  | .prekey username => do
    let _ ← (Phantom.fetchPrekey n.externals username).run
    return .finished

def node : Prog.System NodeRequest AccountEnv NodeState NodeLabel NodeRequest Ending where
  handle := NodeRequest.handle n
  start req := req
  next req _ := req

end System

end Lqxp
