import Mathlib.Data.List.Sort
import Lqxp.Websocket.Protocol.Impl.Sessions

/-!
This module contains the handlers by which the devices of one account find each other and exchange encrypted
payloads.
-/

namespace Lqxp

def maxCloudSyncBytes : Nat := 64 * 1024

def cloudSyncRateLimit : Nat := 240

def cloudSyncRateWindowMs : Nat := 10000

def syncPeersRateLimit : Nat := 15

def syncPeersRateWindowMs : Nat := 10000

/--
The other sessions of an account, each under its id.
-/
def siblings (players : AssocMap String PlayerSession) (sid userId : String)
    : List (String × PlayerSession) :=
  (players.entries.map fun x => (x.1, x.2)).filter fun x => x.1 ≠ sid && x.2.userId = userId

section Relay

/--
Where a payload goes: the client id of the sender, the sessions that it is for and the number of the other
sessions of the account.
-/
structure RelayRoute where
  fromClientId : String
  targets : List (String × String)
  peerCount : Nat

/--
The route of a payload, each target with its session id and its client id.
-/
def relayRoute (sid toClientId : String) : Proto (Except String RelayRoute) :=
  look fun _ s =>
    match s.players.lookup sid with
    | none => .error "You need to be identified before"
    | some sender =>
      if Text.trim sender.userId = "" || sender.username = "" then
        .error "You need to be identified before"
      else if sender.clientId = "" then
        .error "Missing clientId"
      else
        let peers := siblings s.players sid sender.userId
        let targets := peers.filter fun x => toClientId = "" || x.2.clientId = toClientId
        .ok
          { fromClientId := sender.clientId, targets := targets.map fun x => (x.1, x.2.clientId),
            peerCount := peers.length }

/--
Queue a payload for the targets. The answer is the targets whose queue has taken it, and the number of the
others.
-/
def relayTo (targets : List (String × String)) (payload : Json) : Proto (List (String × String) × Nat) :=
  .atom fun e s =>
    let delivered := targets.filter fun target => e.accepts target.1
    let dropped := targets.countP fun target => !e.accepts target.1
    ((delivered, dropped), .broadcast (delivered.map (·.1)) payload, s)

/--
The client ids of the targets, sorted and without repetition.
-/
def deliveredPeers (delivered : List (String × String)) : List String :=
  ((delivered.map (·.2)).filter (· ≠ "")).dedup.insertionSort (· ≤ ·)

def relayCloudSyncOp (sid : String) (d : Json) : Proto Bool := do
  let reqId := requestId d
  if ← hitRateLimit ("cloud_sync:session:" ++ sid) cloudSyncRateLimit cloudSyncRateWindowMs then
    respondError sid 60 "Rate limit exceeded" reqId
  else do
  let some encrypted := (d.get? "encrypted").filter (·.isObject)
    | respondError sid 60 "Missing payload" reqId
  if maxCloudSyncBytes < Text.len encrypted.render then
    respondError sid 60 "Payload too large" reqId
  else do
  let toClientId := sanitizeClientId (d.getStr? "toClientId")
  match ← relayRoute sid toClientId with
  | .error text => respondError sid 60 text reqId
  | .ok route =>
  let (delivered, dropped) ← relayTo route.targets <| message 61
    [("fromClientId", .str route.fromClientId), ("toClientId", .str toClientId), ("encrypted", encrypted)]
  if reqId.isSome then
    respondOk sid 60
      [("delivered", .int delivered.length), ("dropped", .int dropped),
        ("peers", .arr ((deliveredPeers delivered).map .str)), ("peerCount", .int route.peerCount)] reqId
  else
    return false

end Relay

section Peers

/--
The client id of a session, and the client id and platform of each routable sibling, sorted by client id.
-/
def syncPeers (sid : String) : Proto (Except String (String × List (String × String))) :=
  look fun _ s =>
    match s.players.lookup sid with
    | none => .error "You need to be identified before"
    | some me =>
      if Text.trim me.userId = "" || me.username = "" then
        .error "You need to be identified before"
      else
        let peers := (siblings s.players sid me.userId).filter (·.2.clientId ≠ "")
        let peers := peers.map fun x => (x.2.clientId, x.2.platform)
        .ok (me.clientId, peers.mergeSort fun x y => x.1 ≤ y.1)

def syncPeersOp (sid : String) (d : Json) : Proto Bool := do
  let reqId := requestId d
  if ← hitRateLimit ("sync_peers:session:" ++ sid) syncPeersRateLimit syncPeersRateWindowMs then
    respondError sid 62 "Rate limit exceeded" reqId
  else do
  match ← syncPeers sid with
  | .error text => respondError sid 62 text reqId
  | .ok (selfClientId, peers) =>
  respondOk sid 62
    [("self", .str selfClientId),
      ("peers", .arr (peers.map fun x => .obj [("clientId", .str x.1), ("platform", .str x.2)]))] reqId

end Peers

end Lqxp
