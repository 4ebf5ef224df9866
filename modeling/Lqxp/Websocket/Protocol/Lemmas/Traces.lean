import Lqxp.Prog.Trace
import Lqxp.Websocket.Protocol.Impl.Sessions

/-!
This module contains what the basic pieces of the handlers do in an uninterrupted run, and the messages that
such a run queues.
-/

namespace Lqxp

/--
The messages that a step queues, each with the session that it is for.
-/
def Label.queued : Label → List (String × Json)
  | .reply sid payload => [(sid, payload)]
  | .broadcast recipients payload => recipients.map fun sid => (sid, payload)
  | _ => []

def queued (tr : List (Env × Label)) : List (String × Json) := tr.flatMap fun x => x.2.queued

@[simp]
theorem queued_nil : queued [] = [] := rfl

@[simp]
theorem queued_cons (x : Env × Label) (tr : List (Env × Label)) : queued (x :: tr) = x.2.queued ++ queued tr :=
  List.flatMap_cons

@[simp]
theorem queued_append (tr tr' : List (Env × Label)) : queued (tr ++ tr') = queued tr ++ queued tr' :=
  List.flatMap_append

@[simp]
theorem Label.queued_quiet : Label.quiet.queued = [] := rfl

def AppState.replyLabel (s : AppState) (sid : String) (payload : Json) : Label :=
  if (s.players.lookup sid).isSome then .reply sid payload else .quiet

theorem AppState.mem_queued_replyLabel {s : AppState} {sid : String} {payload : Json} {m : String × Json}
    (h : m ∈ (s.replyLabel sid payload).queued) : m = (sid, payload) := by
  unfold replyLabel at h
  split at h
  . exact List.mem_singleton.1 h
  . contradiction

theorem AppState.replyLabel_congr {s s' : AppState} (h : s'.players = s.players)
    : s'.replyLabel = s.replyLabel := by
  funext sid payload
  rw [replyLabel, replyLabel, h]

section Pieces

variable {s s' : AppState} {tr : List (Env × Label)} {sid : String}

theorem play_look (e : Env) (f : Env → AppState → α) : (Prog.play e (look f) s).2 = (f e s, s) := rfl

theorem trace_look {f : Env → AppState → α} {a : α} (h : Prog.Trace (look f) s tr a s')
    : ∃ e, tr = [(e, .quiet)] ∧ a = f e s ∧ s' = s :=
  Prog.trace_atom_iff.1 h

theorem trace_hitRateLimit {key : String} {limit windowMs : Nat} {hit : Bool}
    (h : Prog.Trace (hitRateLimit key limit windowMs) s tr hit s')
    : ∃ e, tr = [(e, .quiet)] ∧ hit = (rateLimitHit e.now key limit windowMs s.rateLimits).1
        ∧ s' = { s with rateLimits := (rateLimitHit e.now key limit windowMs s.rateLimits).2 } :=
  Prog.trace_atom_iff.1 h

theorem trace_respondToSender {payload : Json} {u : Unit}
    (h : Prog.Trace (respondToSender sid payload) s tr u s')
    : ∃ e, tr = [(e, s.replyLabel sid payload)] ∧ s' = s := by
  obtain ⟨e, rfl, -, rfl⟩ := Prog.trace_atom_iff.1 h
  refine ⟨e, ?_, ?_⟩
  . cases hplayer : s.players.lookup sid with
    | none => simp [AppState.replyLabel, hplayer]
    | some player => simp [AppState.replyLabel, hplayer]
  . cases hplayer : s.players.lookup sid with
    | none => rfl
    | some player => rfl

theorem trace_respondError {op : Nat} {text : String} {reqId : Option String} {b : Bool}
    (h : Prog.Trace (respondError sid op text reqId) s tr b s')
    : ∃ e, tr = [(e, s.replyLabel sid (withRequestId (message op [("error", .str text)]) reqId))] ∧ s' = s := by
  obtain ⟨u, s₁, tr₁, tr₂, hreply, hdone, rfl⟩ := Prog.trace_bind_iff.1 h
  obtain ⟨e, rfl, rfl⟩ := trace_respondToSender hreply
  obtain ⟨rfl, -, rfl⟩ := Prog.trace_done_iff.1 hdone
  exact ⟨e, rfl, rfl⟩

theorem trace_respondOk {op : Nat} {d : List (String × Json)} {reqId : Option String} {b : Bool}
    (h : Prog.Trace (respondOk sid op d reqId) s tr b s')
    : ∃ e, tr = [(e, s.replyLabel sid (withRequestId (message op (("ok", .bool true) :: d)) reqId))]
        ∧ s' = s := by
  obtain ⟨u, s₁, tr₁, tr₂, hreply, hdone, rfl⟩ := Prog.trace_bind_iff.1 h
  obtain ⟨e, rfl, rfl⟩ := trace_respondToSender hreply
  obtain ⟨rfl, -, rfl⟩ := Prog.trace_done_iff.1 hdone
  exact ⟨e, rfl, rfl⟩

/--
The messages by which the sessions of an account, except one, hear of a device that came or went.
-/
def AppState.syncMessages (s : AppState) (userId event clientId platform : String)
    (exclude : Option String) : List (String × Json) :=
  if Text.trim userId = "" || Text.trim clientId = "" then
    []
  else
    let recipients := s.players.values.filter fun player =>
      player.userId = userId && some player.id ≠ exclude
    recipients.map fun player => (player.id, message 63
      [("event", .str event), ("clientId", .str clientId), ("platform", .str platform)])

theorem trace_broadcastSyncPeerEvent {userId event clientId platform : String} {exclude : Option String}
    {u : Unit} (h : Prog.Trace (broadcastSyncPeerEvent userId event clientId platform exclude) s tr u s')
    : queued tr = s.syncMessages userId event clientId platform exclude ∧ s' = s := by
  unfold broadcastSyncPeerEvent at h
  split at h
  next hblank =>
    obtain ⟨rfl, -, rfl⟩ := Prog.trace_done_iff.1 h
    refine ⟨?_, rfl⟩
    rw [AppState.syncMessages, if_pos hblank, queued_nil]
  next hblank =>
    obtain ⟨e, rfl, -, rfl⟩ := Prog.trace_atom_iff.1 h
    refine ⟨?_, rfl⟩
    rw [AppState.syncMessages, if_neg hblank]
    simp [Label.queued]

end Pieces

end Lqxp
