import Lqxp.Core.Eviction
import Lqxp.Core.PublicProfiles
import Lqxp.Services.Phantom.Blocks
import Lqxp.Websocket.Protocol.Impl.Polls
import Lqxp.Websocket.Protocol.Lemmas.Traces

/-!
This module contains the state of one server with everything that its handlers share, and how the handlers that
know only a part of it run over the whole.
-/

namespace Lqxp

/--
What a server is built with: its keys and primitives, and what its configuration says about the network.
-/
structure Deployment where
  externals : Externals
  crypto : Crypto
  signatures : DeviceSignatures
  pollDigest : List UInt8 → String
  pollSalt : List UInt8
  latestVersion : Option String := none
  heartbeatInterval : Nat := 30000

structure NodeState where
  profile : ProfileState
  pollTallies : AssocMap String PollTally := ∅
  tables : PhantomTables := {}

abbrev NodeState.app (s : NodeState) : AppState := s.profile.account.app

inductive NodeLabel where
  /-- A step of the rest of the server. -/
  | profile (label : ProfileLabel)
  | poll (label : PollLabel)
  /-- A statement on the tables of prekeys and blocks. -/
  | tables
  /-- A message to the connection itself, whether its session is registered or not. -/
  | sent (sid : String) (payload : Json)

/--
A piece of a handler that may use everything.
-/
abbrev Node (α : Type) := Prog AccountEnv NodeState NodeLabel α

abbrev NodeApi (α : Type) := ExceptT ApiError (Prog AccountEnv NodeState NodeLabel) α

def profileView : Prog.View AccountEnv ProfileState ProfileLabel AccountEnv NodeState NodeLabel where
  env e := e
  get := NodeState.profile
  put profile s := { s with profile }
  tag _ l := .profile l
  get_put _ _ := rfl

def pollView : Prog.View Env PollState PollLabel AccountEnv NodeState NodeLabel where
  env := AccountEnv.toEnv
  get s := { app := s.app, pollTallies := s.pollTallies }
  put polls s :=
    { s with
      profile := { s.profile with account := { s.profile.account with app := polls.app } }
      pollTallies := polls.pollTallies }
  tag _ l := .poll l
  get_put _ _ := rfl

def onProfiles (p : Profiles α) : Node α := p.zoom profileView

def onPolls (p : Polls α) : Node α := p.zoom pollView

def onSocket (sid : String) (p : Proto α) : Node α := onProfiles (onSession (some sid) p)

/--
A message for a connection that does not go through its session.
-/
def sendJson (sid : String) (payload : Json) : Node Unit := .atom fun _ s => ((), .sent sid payload, s)

/--
What the serving of a frame comes to. The task of a connection that has panicked does nothing more.
-/
inductive Outcome where
  | goesOn
  | closes
  | panics
  deriving DecidableEq

/--
The outcome of a handler that cannot panic. Its answer is whether the connection is closed.
-/
def outcomeOf (p : Node Bool) : Node Outcome := do
  if ← p then
    return .closes
  else
    return .goesOn

/--
One statement on the tables of prekeys and blocks.
-/
def onTables (query : Tabled α) : NodeApi α :=
  ExceptT.mk <| .atom fun e s =>
    match query { s.tables with faults := [e.dbFails] } with
    | .ok a tables => (.ok a, .tables, { s with tables := { tables with faults := [] } })
    | .error err tables => (.error err, .tables, { s with tables := { tables with faults := [] } })

/--
The messages that a step queues, each with the session that it is for.
-/
def NodeLabel.queued : NodeLabel → List (String × Json)
  | .profile (.account (.handled _ _ label)) => label.queued
  | .profile (.account (.closing sid payload)) => [(sid, payload)]
  | .poll (.server label) => label.queued
  | .sent sid payload => [(sid, payload)]
  | _ => []

end Lqxp
