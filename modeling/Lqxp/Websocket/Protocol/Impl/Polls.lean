import Lqxp.Core.Crypto
import Lqxp.Data.Counters
import Lqxp.Prog.Emits
import Lqxp.Websocket.Protocol.Impl.Basic
import Lqxp.Websocket.Protocol.Impl.Buffer

/-!
This module contains the polls: the anonymous tallies of their votes, and the request that casts a vote.
-/

namespace Lqxp

def maxPollOptions : Nat := 10

/--
Who has voted, as hashes, and how often each option was chosen.
-/
structure PollTally where
  voters : List String := []
  counts : List Nat := []

structure PollState where
  app : AppState
  pollTallies : AssocMap String PollTally := ∅

inductive PollLabel where
  /-- A step of the rest of the server. -/
  | server (label : Label)
  | voted (messageId userId : String) (sent : List Json)

abbrev Polls (α : Type) := Prog Env PollState PollLabel α

def serverView : Prog.View Env AppState Label Env PollState PollLabel where
  env e := e
  get := PollState.app
  put app s := { s with app }
  tag _ l := .server l
  get_put _ _ := rfl

def onServer (p : Proto α) : Polls α := p.zoom serverView

def PollState.tally (s : PollState) (messageId : String) : PollTally := (s.pollTallies.lookup messageId).getD {}

section Hash

variable (digest : List UInt8 → String) (salt : List UInt8)

def pollVoterHash (messageId userId : String) : String :=
  digest (salt ++ utf8 messageId ++ utf8 ":" ++ utf8 userId)

def pollStateFor (messageId : String) (tally : PollTally) (userId : String) : Json :=
  let voted := userId ≠ "" && tally.voters.contains (pollVoterHash digest salt messageId userId)
  let total : Json := .int tally.voters.length
  if voted then
    .obj [("total", total), ("voted", .bool true), ("counts", .arr (tally.counts.map fun n => .int n))]
  else
    .obj [("total", total), ("voted", .bool false)]

def sentChoices (d : Json) : List Json :=
  match d.get? "choices" with
  | some (.arr choices) => choices
  | _ => []

def pollChoices (sent : List Json) : List Nat :=
  (((sent.filterMap Json.asU64?).filter (· < maxPollOptions)).insertionSort (· ≤ ·)).destutter (· ≠ ·)

/--
Count a vote, unless the voter has voted before. The tally is locked all along.
-/
def castVote (messageId userId : String) (sent : List Json) : Polls (Option PollTally) :=
  .atom fun _ s =>
    let voter := pollVoterHash digest salt messageId userId
    let tally := s.tally messageId
    if tally.voters.contains voter then
      (none, .server .quiet, s)
    else
      let tally := { voters := voter :: tally.voters, counts := Counters.add (pollChoices sent) tally.counts }
      (some tally, .voted messageId userId sent, { s with pollTallies := s.pollTallies.insert messageId tally })

/--
The room of a session in which a message stands.
-/
def pollRoom (rooms : List String) (messageId : String) : Proto (Option String) :=
  look fun e s =>
    pickFrom e <| (s.roomMessages.entries.filter fun x =>
      rooms.contains x.1 && x.2.any fun message => message.messageId = messageId && !message.deleted).map (·.1)

def pollRecipients (roomId : String) : Proto (List (String × String)) :=
  look fun _ s => (s.players.values.filter (·.rooms.contains roomId)).map fun player => (player.id, player.userId)

def sendPollState (roomId messageId : String) (tally : PollTally) : List (String × String) → Proto Unit
  | [] => return ()
  | (sid, userId) :: recipients => do
    let payload := message 54 [("roomId", .str roomId), ("messageId", .str messageId),
      ("pollState", pollStateFor digest salt messageId tally userId)]
    Prog.atom fun _ s => ((), .broadcast [sid] payload, s)
    sendPollState roomId messageId tally recipients

def votePoll (sid : String) (d : Json) : Polls Bool := do
  let reqId := requestId d
  if ← onServer (hitRateLimit ("poll_vote:session:" ++ sid) 10 10000) then
    onServer (respondError sid 53 "Rate limit exceeded" reqId)
  else
    let some messageId := ((d.getStr? "messageId").map Text.trim).filter (· ≠ "")
      | onServer (respondError sid 53 "Missing messageId" reqId)
    let sent := sentChoices d
    if pollChoices sent = [] then
      onServer (respondError sid 53 "Missing choices" reqId)
    else
      let player ← onServer (getPlayer sid)
      let some player := player.filter (·.userId ≠ "")
        | onServer (respondError sid 53 "You need to be identified before" reqId)
      let some roomId ← onServer (pollRoom player.rooms messageId)
        | onServer (respondError sid 53 "Unknown messageId" reqId)
      let some tally ← castVote digest salt messageId player.userId sent
        | onServer (respondError sid 53 "Already voted" reqId)
      let recipients ← onServer (pollRecipients roomId)
      onServer (sendPollState digest salt roomId messageId tally recipients)
      onServer (respondOk sid 53 [("messageId", .str messageId)] reqId)

end Hash

end Lqxp
