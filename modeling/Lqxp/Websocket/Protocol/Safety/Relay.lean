import Mathlib.Data.Set.Card
import Mathlib.Data.String.Basic
import Lqxp.Websocket.Protocol.Impl.Sync
import Lqxp.Websocket.Protocol.Lemmas.Traces

/-!
This module contains the confinement of the relay between the devices of an account, and the truth of its
acknowledgement.
-/

namespace Lqxp

/--
The other sessions of the account of a session, or those of them with a client id.
-/
def AppState.selected (s : AppState) (sid toClientId : String) : Set String :=
  {k | ∃ sender player, s.players.lookup sid = some sender ∧ s.players.lookup k = some player ∧ k ≠ sid
    ∧ player.userId = sender.userId ∧ (toClientId = "" ∨ player.clientId = toClientId)}

def relayFrame (fromClientId toClientId : String) (encrypted : Json) : Json :=
  message 61
    [("fromClientId", .str fromClientId), ("toClientId", .str toClientId), ("encrypted", encrypted)]

/--
What the acknowledgement of a relay says.
-/
structure RelayAck where
  delivered : Nat
  dropped : Nat
  peers : List String
  peerCount : Nat

def RelayAck.payload (ack : RelayAck) (reqId : Option String) : Json :=
  withRequestId (message 60
    [("ok", .bool true), ("delivered", .int ack.delivered), ("dropped", .int ack.dropped),
      ("peers", .arr (ack.peers.map .str)), ("peerCount", .int ack.peerCount)]) reqId

/--
An acknowledgement says what has become of the frame.
-/
structure RelayAck.Truthful (ack : RelayAck) (s : AppState) (sid toClientId : String)
    (accepted : Set String) : Prop where
  total : ack.delivered + ack.dropped = (s.selected sid toClientId).ncard
  delivered : ack.delivered = accepted.ncard
  peerCount : ack.peerCount = (s.selected sid "").ncard
  sorted : ack.peers.Pairwise (· < ·)
  peers (clientId : String) : clientId ∈ ack.peers
    ↔ clientId ≠ "" ∧ ∃ k ∈ accepted, (s.players.lookup k).map (·.clientId) = some clientId

/--
What a request to relay does: it is answered with an error, as long as the session is there, and nobody else
hears of it, or a step of it queues its frame once for each selected session whose queue takes it then, and for
no other, and what is answered is true.
-/
inductive RelayOutcome (s : AppState) (sid : String) (d : Json) (tr : List (Env × Label)) : Prop where
  | refused (text : String)
      (hanswer : queued tr
        = (s.replyLabel sid (withRequestId (message 60 [("error", .str text)]) (requestId d))).queued)
  | relayed (e : Env) (sender : PlayerSession) (recipients : List String) (ack : RelayAck)
      (hsender : s.players.lookup sid = some sender)
      (hstep : (e, .broadcast recipients (relayFrame sender.clientId
        (sanitizeClientId (d.getStr? "toClientId")) ((d.get? "encrypted").getD .null))) ∈ tr)
      (hnodup : recipients.Nodup)
      (hrecipients : ∀ k, k ∈ recipients
        ↔ k ∈ s.selected sid (sanitizeClientId (d.getStr? "toClientId")) ∧ e.accepts k)
      (hothers : (queued tr).filter (·.1 ≠ sid) = recipients.map fun k =>
        (k, relayFrame sender.clientId (sanitizeClientId (d.getStr? "toClientId"))
          ((d.get? "encrypted").getD .null)))
      (hown : ∀ m ∈ queued tr, m.1 = sid → m.2 = ack.payload (requestId d))
      (htruthful : ack.Truthful s sid (sanitizeClientId (d.getStr? "toClientId"))
        {k | k ∈ s.selected sid (sanitizeClientId (d.getStr? "toClientId")) ∧ e.accepts k})

section Siblings

variable {players : AssocMap String PlayerSession} {sid userId : String}

theorem nodup_siblings : ((siblings players sid userId).map (·.1)).Nodup := by
  have hkeys : (players.entries.map (·.1)).Nodup := players.nodupKeys
  rw [siblings, List.filter_map, List.map_map]
  exact hkeys.sublist (List.filter_sublist.map _)

theorem mem_siblings {x : String × PlayerSession}
    : x ∈ siblings players sid userId ↔ players.lookup x.1 = some x.2 ∧ x.1 ≠ sid ∧ x.2.userId = userId := by
  have hentry : x ∈ players.entries.map (fun y => (y.1, y.2)) ↔ players.lookup x.1 = some x.2 := by
    rw [List.mem_map]
    constructor
    . rintro ⟨⟨k, v⟩, hmem, rfl⟩
      exact AList.mem_lookup_iff.2 hmem
    . intro h
      exact ⟨⟨x.1, x.2⟩, AList.mem_lookup_iff.1 h, rfl⟩
  rw [siblings, List.mem_filter, hentry]
  simp

end Siblings

section Route

variable {s : AppState} {sid toClientId : String} {sender : PlayerSession}

/--
The sessions that a payload is for, each with its client id.
-/
def relayTargets (players : AssocMap String PlayerSession) (sid userId toClientId : String)
    : List (String × String) :=
  ((siblings players sid userId).filter fun x => toClientId = "" || x.2.clientId = toClientId).map
    fun x => (x.1, x.2.clientId)

theorem mem_relayTargets (hsender : s.players.lookup sid = some sender) {k clientId : String}
    : (k, clientId) ∈ relayTargets s.players sid sender.userId toClientId
        ↔ k ∈ s.selected sid toClientId ∧ (s.players.lookup k).map (·.clientId) = some clientId := by
  rw [relayTargets, List.mem_map]
  constructor
  . rintro ⟨⟨k', player⟩, hmem, heq⟩
    obtain ⟨rfl, rfl⟩ := by simpa using heq
    obtain ⟨hsibling, hclient⟩ := List.mem_filter.1 hmem
    obtain ⟨hplayer, hne, huser⟩ := mem_siblings.1 hsibling
    refine ⟨⟨sender, player, hsender, hplayer, hne, huser, by simpa using hclient⟩, ?_⟩
    rw [hplayer, Option.map_some]
  . rintro ⟨⟨sender', player, hsender', hplayer, hne, huser, hclient⟩, hid⟩
    obtain rfl : sender = sender' := Option.some.inj (hsender.symm.trans hsender')
    obtain rfl : player.clientId = clientId := by simpa [hplayer] using hid
    refine ⟨(k, player), List.mem_filter.2 ⟨mem_siblings.2 ⟨hplayer, hne, huser⟩, ?_⟩, rfl⟩
    simpa using hclient

theorem nodup_relayTargets (players : AssocMap String PlayerSession) (sid userId toClientId : String)
    : ((relayTargets players sid userId toClientId).map (·.1)).Nodup := by
  rw [relayTargets, List.map_map]
  exact nodup_siblings.sublist (List.filter_sublist.map _)

theorem mem_map_relayTargets (hsender : s.players.lookup sid = some sender) {k : String}
    : k ∈ (relayTargets s.players sid sender.userId toClientId).map (·.1) ↔ k ∈ s.selected sid toClientId := by
  rw [List.mem_map]
  constructor
  . rintro ⟨⟨k', clientId⟩, hmem, rfl⟩
    exact ((mem_relayTargets hsender).1 hmem).1
  . intro hmem
    obtain ⟨-, player, -, hplayer, -⟩ := id hmem
    exact ⟨(k, player.clientId), (mem_relayTargets hsender).2 ⟨hmem, by rw [hplayer, Option.map_some]⟩, rfl⟩

theorem ncard_eq_length {l : List String} {t : Set String} (hnodup : l.Nodup) (hmem : ∀ k, k ∈ l ↔ k ∈ t)
    : t.ncard = l.length := by
  have hset : t = (l.toFinset : Set String) := by
    ext k
    rw [Finset.mem_coe, List.mem_toFinset, hmem]
  rw [hset, Set.ncard_coe_finset, List.toFinset_card_of_nodup hnodup]

theorem length_relayTargets (hsender : s.players.lookup sid = some sender)
    : (relayTargets s.players sid sender.userId toClientId).length = (s.selected sid toClientId).ncard := by
  rw [ncard_eq_length (nodup_relayTargets ..) fun _ => mem_map_relayTargets hsender, List.length_map]

theorem trace_relayRoute {s' : AppState} {tr : List (Env × Label)} {answer : Except String RelayRoute}
    (h : Prog.Trace (relayRoute sid toClientId) s tr answer s')
    : queued tr = [] ∧ s' = s ∧ ∀ route, answer = .ok route → ∃ sender,
        s.players.lookup sid = some sender ∧ route.fromClientId = sender.clientId
          ∧ route.targets = relayTargets s.players sid sender.userId toClientId
          ∧ route.peerCount = (relayTargets s.players sid sender.userId "").length := by
  obtain ⟨e, rfl, rfl, rfl⟩ := trace_look h
  refine ⟨rfl, rfl, fun route hroute => ?_⟩
  cases hsender : s'.players.lookup sid with
  | none =>
    rw [hsender] at hroute
    contradiction
  | some sender =>
    simp only [hsender] at hroute
    split at hroute
    . contradiction
    . split at hroute
      . contradiction
      . obtain rfl := Except.ok.inj hroute
        refine ⟨sender, rfl, rfl, rfl, ?_⟩
        simp [relayTargets]

end Route

section Acknowledgement

variable {s : AppState} {sid toClientId : String} {sender : PlayerSession}

theorem sorted_deliveredPeers (delivered : List (String × String))
    : (deliveredPeers delivered).Pairwise (· < ·) := by
  have hsorted : (deliveredPeers delivered).Pairwise (· ≤ ·) := List.pairwise_insertionSort ..
  have hnodup : (deliveredPeers delivered).Nodup :=
    (List.perm_insertionSort _ _).nodup_iff.2 (List.nodup_dedup _)
  exact (hsorted.and hnodup).imp fun h => lt_of_le_of_ne h.1 h.2

theorem mem_deliveredPeers {delivered : List (String × String)} {clientId : String}
    : clientId ∈ deliveredPeers delivered ↔ clientId ≠ "" ∧ ∃ k, (k, clientId) ∈ delivered := by
  rw [deliveredPeers, (List.perm_insertionSort _ _).mem_iff, List.mem_dedup, List.mem_filter, List.mem_map]
  simp [and_comm]

theorem filter_length_add_countP (accepts : String → Bool) (targets : List (String × String))
    : (targets.filter fun target => accepts target.1).length
        + targets.countP (fun target => !accepts target.1) = targets.length := by
  induction targets with
  | nil => rfl
  | cons target targets ih => cases h : accepts target.1 <;> simp [h] at ih ⊢ <;> omega

/--
The acknowledgement of a frame that some targets have taken.
-/
def ackOf (accepts : String → Bool) (targets : List (String × String)) (peerCount : Nat) : RelayAck :=
  let delivered := targets.filter fun target => accepts target.1
  { delivered := delivered.length, dropped := targets.countP fun target => !accepts target.1,
    peers := deliveredPeers delivered, peerCount }

theorem truthful_ackOf (hsender : s.players.lookup sid = some sender) (accepts : String → Bool)
    : let targets := relayTargets s.players sid sender.userId toClientId
      (ackOf accepts targets (relayTargets s.players sid sender.userId "").length).Truthful s sid toClientId
        {k | k ∈ s.selected sid toClientId ∧ accepts k} := by
  intro targets
  refine ⟨?_, ?_, length_relayTargets hsender, sorted_deliveredPeers _, fun clientId => ?_⟩
  . rw [← length_relayTargets hsender]
    exact filter_length_add_countP accepts targets
  . have hnodup : ((targets.filter fun target => accepts target.1).map (·.1)).Nodup :=
      (nodup_relayTargets ..).sublist (List.filter_sublist.map _)
    rw [ncard_eq_length hnodup, List.length_map]
    . rfl
    . intro k
      rw [Set.mem_ofPred_eq, ← mem_map_relayTargets hsender, List.mem_map, List.mem_map]
      constructor
      . rintro ⟨target, hmem, rfl⟩
        exact ⟨⟨target, List.mem_of_mem_filter hmem, rfl⟩, (List.mem_filter.1 hmem).2⟩
      . rintro ⟨⟨target, hmem, rfl⟩, haccepts⟩
        exact ⟨target, List.mem_filter.2 ⟨hmem, haccepts⟩, rfl⟩
  . rw [ackOf, mem_deliveredPeers]
    refine and_congr_right fun _ => exists_congr fun k => ?_
    rw [List.mem_filter, mem_relayTargets hsender]
    constructor
    . rintro ⟨⟨hselected, hclient⟩, haccepts⟩
      exact ⟨⟨hselected, haccepts⟩, hclient⟩
    . rintro ⟨⟨hselected, haccepts⟩, hclient⟩
      exact ⟨⟨hselected, hclient⟩, haccepts⟩

end Acknowledgement

section Outcome

variable {s s' : AppState} {sid : String} {d : Json} {tr tr' : List (Env × Label)} {b : Bool}

theorem RelayOutcome.of_respondError {s₁ : AppState} {text : String} (hbefore : queued tr = [])
    (h : Prog.Trace (respondError sid 60 text (requestId d)) s₁ tr' b s') (hplayers : s₁.players = s.players)
    : RelayOutcome s sid d (tr ++ tr') := by
  obtain ⟨e, rfl, -⟩ := trace_respondError h
  refine .refused text ?_
  rw [queued_append, hbefore, List.nil_append, queued_cons, queued_nil, List.append_nil,
    AppState.replyLabel_congr hplayers]

theorem trace_relayTo {targets : List (String × String)} {payload : Json}
    {result : List (String × String) × Nat} (h : Prog.Trace (relayTo targets payload) s tr result s')
    : ∃ e : Env, result = (targets.filter (fun target => e.accepts target.1),
          targets.countP fun target => !e.accepts target.1)
        ∧ tr = [(e, .broadcast (result.1.map (·.1)) payload)] ∧ s' = s := by
  obtain ⟨e, rfl, rfl, rfl⟩ := Prog.trace_atom_iff.1 h
  exact ⟨e, rfl, rfl, rfl⟩

theorem RelayOutcome.of_route {sender : PlayerSession} {targets : List (String × String)}
    {peerCount : Nat} {toClientId : String} {encrypted : Json} {e : Env}
    (hto : sanitizeClientId (d.getStr? "toClientId") = toClientId)
    (hencrypted : d.get? "encrypted" = some encrypted)
    (hsender : s.players.lookup sid = some sender)
    (htargets : targets = relayTargets s.players sid sender.userId toClientId)
    (hpeers : peerCount = (relayTargets s.players sid sender.userId "").length)
    (hbefore : queued tr = [])
    (hack : ∀ m ∈ queued tr', m = (sid, (ackOf e.accepts targets peerCount).payload (requestId d)))
    : RelayOutcome s sid d (tr ++ ((e, .broadcast
        ((targets.filter fun target => e.accepts target.1).map (·.1))
        (relayFrame sender.clientId toClientId encrypted)) :: tr')) := by
  subst hto htargets hpeers
  generalize hdelivered : ((relayTargets s.players sid sender.userId (sanitizeClientId (d.getStr? "toClientId"))).filter
    fun target => e.accepts target.1).map (·.1) = recipients
  have hmem (k : String) : k ∈ recipients
      ↔ k ∈ s.selected sid (sanitizeClientId (d.getStr? "toClientId")) ∧ e.accepts k := by
    rw [← mem_map_relayTargets hsender, ← hdelivered, List.mem_map, List.mem_map]
    constructor
    . rintro ⟨target, htarget, rfl⟩
      obtain ⟨hmem, haccepts⟩ := List.mem_filter.1 htarget
      exact ⟨⟨target, hmem, rfl⟩, haccepts⟩
    . rintro ⟨⟨target, hmem, rfl⟩, haccepts⟩
      exact ⟨target, List.mem_filter.2 ⟨hmem, haccepts⟩, rfl⟩
  have hne (k : String) (hk : k ∈ recipients) : k ≠ sid := by
    obtain ⟨-, -, -, -, hne, -⟩ := ((hmem k).1 hk).1
    exact hne
  refine .relayed e sender recipients _ hsender ?_ ?_ hmem ?_ ?_ (truthful_ackOf hsender e.accepts)
  . rw [hencrypted, Option.getD_some]
    exact List.mem_append_right _ List.mem_cons_self
  . rw [← hdelivered]
    exact (nodup_relayTargets ..).sublist (List.filter_sublist.map _)
  . rw [queued_append, hbefore, List.nil_append, queued_cons, Label.queued, List.filter_append, hencrypted,
      Option.getD_some, List.filter_eq_self.2 fun m hm => ?_, List.filter_eq_nil_iff.2 fun m hm => ?_,
      List.append_nil]
    . simp [hack m hm]
    . obtain ⟨k, hk, rfl⟩ := List.mem_map.1 hm
      simpa using hne k hk
  . intro m hm hself
    rw [queued_append, hbefore, List.nil_append, queued_cons, Label.queued] at hm
    rcases List.mem_append.1 hm with hm | hm
    . obtain ⟨k, hk, rfl⟩ := List.mem_map.1 hm
      exact absurd hself (hne k hk)
    . rw [hack m hm]

/--
Every request to relay has such an outcome.
-/
theorem relayOutcome_of_trace (h : Prog.Trace (relayCloudSyncOp sid d) s tr b s')
    : RelayOutcome s sid d tr := by
  rw [relayCloudSyncOp] at h
  obtain ⟨limited, s₁, tr₁, tr₂, hlimit, h, rfl⟩ := Prog.trace_bind_iff.1 h
  obtain ⟨e₁, rfl, -, rfl⟩ := trace_hitRateLimit hlimit
  split at h
  . exact .of_respondError rfl h rfl
  . split at h
    next encrypted hpayload =>
      obtain ⟨hencrypted, -⟩ := Option.filter_eq_some_iff.1 hpayload
      split at h
      . exact .of_respondError rfl h rfl
      . obtain ⟨answer, s₂, tr₃, tr₄, hroute, h, rfl⟩ := Prog.trace_bind_iff.1 h
        obtain ⟨hquiet, rfl, hknown⟩ := trace_relayRoute hroute
        rw [← List.append_assoc]
        split at h
        . exact .of_respondError (by simp [hquiet]) h rfl
        next route =>
          obtain ⟨sender, hsender, hfrom, htargets, hpeers⟩ := hknown route rfl
          obtain ⟨result, s₃, tr₅, tr₆, hrelay, h, rfl⟩ := Prog.trace_bind_iff.1 h
          obtain ⟨e₂, rfl, rfl, rfl⟩ := trace_relayTo hrelay
          rw [hfrom]
          dsimp only at h
          have hquiet' : queued ((e₁, .quiet) :: tr₃) = [] := by simp [hquiet]
          have hack : ∀ m ∈ queued tr₆,
              m = (sid, (ackOf e₂.accepts route.targets route.peerCount).payload (requestId d)) := by
            split at h
            . obtain ⟨e₃, rfl, -⟩ := trace_respondOk h
              intro m hm
              rw [queued_cons, queued_nil, List.append_nil] at hm
              rw [AppState.mem_queued_replyLabel hm]
              rfl
            . obtain ⟨rfl, -, -⟩ := Prog.trace_done_iff.1 h
              intro m hm
              contradiction
          exact .of_route rfl hencrypted hsender htargets hpeers hquiet' hack
    next => exact .of_respondError rfl h rfl

end Outcome

/--
A phone sends to the laptop of the account, while the account of somebody else is online.
-/
def threeDevices : AppState :=
  { players := List.foldr (fun player players => players.insert player.id player) ∅
      [{ id := "phone", userId := "1", username := "anna", clientId := "p" },
        { id := "laptop", userId := "1", username := "anna", clientId := "l" },
        { id := "other", userId := "2", username := "boris", clientId := "l" }] }

theorem relayOutcome_threeDevices
    : let d : Json := .obj [("requestId", .str "r"), ("toClientId", .str "l"), ("encrypted", .obj [])]
      RelayOutcome threeDevices "phone" d
        (Prog.play Env.calm (relayCloudSyncOp "phone" d) threeDevices).1 :=
  relayOutcome_of_trace (Prog.trace_play ..)

example : (queued (Prog.play Env.calm (relayCloudSyncOp "phone" (.obj [("encrypted", .obj [])]))
    threeDevices).1).map (·.1) = ["laptop"] := by decide

end Lqxp
