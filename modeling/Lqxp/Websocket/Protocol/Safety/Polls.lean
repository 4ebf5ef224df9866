import Lqxp.Core.Digests
import Lqxp.Websocket.Protocol.Impl.Polls
import Lqxp.Websocket.Protocol.Lemmas.Replies

/-!
This module contains the safety of the polls: their tallies are exactly what has been accepted, whatever else
the server does in between.
-/

namespace Lqxp

section System

inductive PollRequest where
  | vote (sid : String) (d : Json)
  /-- Any other request. It knows nothing of the tallies. -/
  | elsewhere (p : Proto Unit)

inductive VoteProgress where
  | undecided
  | accepted
  | refused
  deriving DecidableEq

def PollLabel.refuses : PollLabel → Bool
  | .server (.reply _ payload) => isError 53 payload
  | _ => false

/--
Whether a step tells that a vote has been counted.
-/
def PollLabel.confirms : PollLabel → Bool
  | .server (.reply _ payload) => isOk 53 payload
  | _ => false

def PollLabel.vote? : PollLabel → Option (String × String × List Json)
  | .voted messageId userId sent => some (messageId, userId, sent)
  | .server _ => none

def PollLabel.actor? : PollLabel → Option String
  | .server (.actor userId _) => some userId
  | _ => none

def VoteProgress.next (g : VoteProgress) (l : PollLabel) : VoteProgress :=
  if l.vote?.isSome then .accepted else if l.refuses then .refused else g

def votedMessage (d : Json) : Option String := ((d.getStr? "messageId").map Text.trim).filter (· ≠ "")

/--
What a request remembers: the account that it has found its session to belong to, and what has become of it.
-/
structure VoteMemory where
  request : PollRequest
  actor : Option String := none
  progress : VoteProgress := .undecided

def VoteMemory.next (g : VoteMemory) (l : PollLabel) : VoteMemory :=
  { g with actor := l.actor?.or g.actor, progress := g.progress.next l }

variable (digest : List UInt8 → String) (salt : List UInt8)

def PollRequest.handle : PollRequest → Polls Unit
  | vote sid d => do
    let _ ← votePoll digest salt sid d
    return ()
  | elsewhere p => onServer p

def pollSystem : Prog.System PollRequest Env PollState PollLabel VoteMemory Unit where
  handle := PollRequest.handle digest salt
  start request := { request }
  next := VoteMemory.next

abbrev PollEvent := Prog.Event PollRequest Env PollLabel VoteMemory

end System

section Votes

/--
The account and the choices of the vote on a message that an event accepts.
-/
def voteIn (messageId : String) : PollEvent → Option (String × List Json)
  | .act _ _ _ (.voted messageId' userId sent) => if messageId' = messageId then some (userId, sent) else none
  | _ => none

theorem voteIn_server (messageId : String) (i : Nat) (g : VoteMemory) (e : Env) (l : Label)
    : voteIn messageId (.act i g e (.server l)) = none := rfl

theorem voteIn_start (messageId : String) (i : Nat) (req : PollRequest)
    : voteIn messageId (.start i req) = none := rfl

def acceptedVotes (messageId : String) (tr : List PollEvent) : List (String × List Json) :=
  tr.filterMap (voteIn messageId)

def votesFor (i : Nat) (vote : String × List Json) : Bool :=
  i < maxPollOptions && (vote.2.filterMap Json.asU64?).contains i

/--
A tally is exactly that of a list of votes.
-/
structure PollTally.Exact (hash : String → String) (votes : List (String × List Json)) (tally : PollTally)
    : Prop where
  once : (votes.map (·.1)).Nodup
  total : tally.voters.length = votes.length
  voted : ∀ userId, hash userId ∈ tally.voters ↔ userId ∈ votes.map (·.1)
  length_counts_le : tally.counts.length ≤ maxPollOptions
  counts : ∀ i, tally.counts.getD i 0 = votes.countP (votesFor i)

theorem mem_pollChoices {sent : List Json} {i : Nat}
    : i ∈ pollChoices sent ↔ i < maxPollOptions ∧ i ∈ sent.filterMap Json.asU64? := by
  rw [pollChoices, Counters.mem_destutter_ne, List.mem_insertionSort, List.mem_filter, decide_eq_true_eq, and_comm]

theorem nodup_pollChoices (sent : List Json) : (pollChoices sent).Nodup :=
  Counters.nodup_destutter_insertionSort _

theorem pollVoterHash_injective {digest : List UInt8 → String} (hinj : Function.Injective digest)
    (salt : List UInt8) (messageId : String) : Function.Injective (pollVoterHash digest salt messageId) := by
  intro userId userId' h
  exact utf8_injective (List.append_cancel_left (hinj h))

namespace PollTally.Exact

variable {hash : String → String} {votes : List (String × List Json)} {tally : PollTally}

theorem nil (hash : String → String) : Exact hash [] {} where
  once := .nil
  total := rfl
  voted := by simp
  length_counts_le := Nat.zero_le _
  counts _ := rfl

theorem cast (h : Exact hash votes tally) (hinj : Function.Injective hash) {userId : String}
    (hnew : hash userId ∉ tally.voters) (sent : List Json)
    : Exact hash (votes ++ [(userId, sent)])
        { voters := hash userId :: tally.voters, counts := Counters.add (pollChoices sent) tally.counts } where
  once := by
    rw [List.map_append, List.map_singleton, List.nodup_append]
    refine ⟨h.once, List.nodup_singleton _, ?_⟩
    intro a ha b hb
    rw [List.mem_singleton.1 hb]
    rintro rfl
    exact hnew ((h.voted a).2 ha)
  total := by rw [List.length_cons, h.total, List.length_append, List.length_singleton]
  voted userId' := by
    rw [List.mem_cons, h.voted, List.map_append, List.map_singleton, List.mem_append, List.mem_singleton,
      hinj.eq_iff, or_comm]
  length_counts_le := Counters.length_add_le h.length_counts_le fun _ hchoice => (mem_pollChoices.1 hchoice).1
  counts i := by
    rw [Counters.getD_add (nodup_pollChoices sent), h.counts, List.countP_append, List.countP_singleton]
    congr 1
    simp [votesFor, mem_pollChoices]

end PollTally.Exact

end Votes

section Steps

variable {digest : List UInt8 → String} {salt : List UInt8} {g : VoteMemory} {sid : String} {d : Json} {α : Type}

/--
The vote is the one of the request, in the name of the account that the request has found.
-/
def VoteMemory.Casts (g : VoteMemory) (messageId userId : String) (sent : List Json) : Prop :=
  ∃ sid d, g.request = .vote sid d ∧ votedMessage d = some messageId ∧ sent = sentChoices d
    ∧ g.actor = some userId

/--
What a step does to the tallies is all in its label. Nobody is both accepted and refused, and only who has been
accepted is told so. A vote looks for the account of its own session.
-/
def TallyStep (digest : List UInt8 → String) (salt : List UInt8) (g : VoteMemory) (_e : Env) (s : PollState)
    (l : PollLabel) (s' : PollState) : Prop :=
  match l with
  | .voted messageId userId sent =>
    g.progress = .undecided ∧ g.Casts messageId userId sent
      ∧ pollVoterHash digest salt messageId userId ∉ (s.tally messageId).voters
      ∧ s'.pollTallies = s.pollTallies.insert messageId
          { voters := pollVoterHash digest salt messageId userId :: (s.tally messageId).voters
            counts := Counters.add (pollChoices sent) (s.tally messageId).counts }
  | .server label =>
    s'.pollTallies = s.pollTallies ∧ ((PollLabel.server label).refuses → g.progress ≠ .accepted)
      ∧ ∀ sid d, g.request = .vote sid d →
        ((PollLabel.server label).confirms → g.progress = .accepted)
          ∧ ∀ userId, (PollLabel.server label).actor? = some userId →
            ∃ player, s.app.players.lookup sid = some player ∧ player.userId = userId

abbrev TallySpec (digest : List UInt8 → String) (salt : List UInt8) (post : α → VoteMemory → Prop)
    (p : Polls α) (g : VoteMemory) : Prop :=
  Prog.Spec VoteMemory.next (TallyStep digest salt) post p g

/--
Steps of the server that are no news for a vote.
-/
def Label.Unheard (l : Label) : Prop :=
  (PollLabel.server l).refuses = false ∧ (PollLabel.server l).confirms = false ∧ (PollLabel.server l).actor? = none

theorem VoteMemory.next_unheard {l : Label} (h : l.Unheard) : g.next (.server l) = g := by
  have hprogress : g.progress.next (.server l) = g.progress := by
    rw [VoteProgress.next, h.1]
    rfl
  rw [VoteMemory.next, hprogress, h.2.2, Option.none_or]

theorem tallyStep_unheard {e : Env} {s s' : PollState} {l : Label} (h : l.Unheard)
    (hs' : s'.pollTallies = s.pollTallies) : TallyStep digest salt g e s (.server l) s' := by
  obtain ⟨hrefuses, hconfirms, hactor⟩ := h
  refine ⟨hs', fun h => absurd (hrefuses.symm.trans h) Bool.false_ne_true, fun sid d _ => ⟨fun h => ?_, fun _ h => ?_⟩⟩
  . exact absurd (hconfirms.symm.trans h) Bool.false_ne_true
  . exact nomatch hactor.symm.trans h

theorem tallySpec_onServer {p : Proto α} (h : p.Emits Label.Unheard)
    : TallySpec digest salt (fun _ g' => g' = g) (onServer p) g := by
  induction p with
  | done a => rfl
  | step act rest ih =>
    intro e s
    obtain ⟨hlabel, hrest⟩ := h e s.app
    refine ⟨tallyStep_unheard hlabel rfl, ?_⟩
    exact (VoteMemory.next_unheard hlabel).symm ▸ ih e s.app hrest

theorem tallySpec_elsewhere {p₀ : Proto Unit} (p : Proto α) (hg : g.request = .elsewhere p₀ ∧ g.progress ≠ .accepted)
    : TallySpec digest salt (fun _ _ => True) (onServer p) g := by
  induction p generalizing g with
  | done a => trivial
  | step act rest ih =>
    intro e s
    refine ⟨⟨rfl, fun _ => hg.2, fun sid d hvote => nomatch hg.1.symm.trans hvote⟩, ih e s.app ⟨hg.1, ?_⟩⟩
    show g.progress.next (.server (act e s.app).1) ≠ .accepted
    rw [VoteProgress.next, if_neg (by simp [PollLabel.vote?])]
    split
    . exact VoteProgress.noConfusion
    . exact hg.2

theorem tallySpec_onServer_bind {β : Type} {p : Proto α} {f : α → Polls β} {post : β → VoteMemory → Prop}
    (hp : p.Emits Label.Unheard) (hf : ∀ a, TallySpec digest salt post (f a) g)
    : TallySpec digest salt post (onServer p >>= f) g :=
  Prog.Spec.bind_iff.2 <| (tallySpec_onServer hp).mono fun a _ hsame => hsame.symm ▸ hf a

theorem emits_look (f : Env → AppState → α) : (look f).Emits Label.Unheard := .atom fun _ _ => ⟨rfl, rfl, rfl⟩

theorem emits_sendPollState (roomId messageId : String) (tally : PollTally) (recipients : List (String × String))
    : (sendPollState digest salt roomId messageId tally recipients).Emits Label.Unheard := by
  induction recipients with
  | nil => exact .pure _
  | cons recipient recipients ih => exact .bind (.atom fun _ _ => ⟨rfl, rfl, rfl⟩) fun _ => ih

theorem tallySpec_respondToSender {payload : Json} (hrefuses : isError 53 payload → g.progress ≠ .accepted)
    (hconfirms : isOk 53 payload → g.progress = .accepted)
    : TallySpec digest salt (fun _ _ => True) (onServer (respondToSender sid payload)) g := by
  intro e s
  refine ⟨?_, trivial⟩
  dsimp only [serverView]
  split
  . exact ⟨rfl, hrefuses, fun _ _ _ => ⟨hconfirms, fun _ h => nomatch h⟩⟩
  . exact tallyStep_unheard ⟨rfl, rfl, rfl⟩ rfl

theorem tallySpec_respondError (text : String) (reqId : Option String) (hg : g.progress ≠ .accepted)
    : TallySpec digest salt (fun _ _ => True) (onServer (respondError sid 53 text reqId)) g := by
  rw [onServer, respondError, Prog.zoom_bind]
  refine Prog.Spec.bind_iff.2 ((tallySpec_respondToSender (fun _ => hg) fun hok => ?_).mono fun _ _ _ => trivial)
  rw [isOk_withRequestId] at hok
  contradiction

theorem tallySpec_respondOk (messageId : String) (reqId : Option String) (hg : g.progress = .accepted)
    : TallySpec digest salt (fun _ _ => True) (onServer (respondOk sid 53 [("messageId", .str messageId)] reqId)) g := by
  rw [onServer, respondOk, Prog.zoom_bind]
  refine Prog.Spec.bind_iff.2 ((tallySpec_respondToSender (fun herror => ?_) fun _ => hg).mono fun _ _ _ => trivial)
  rw [isError_withRequestId, isError_message] at herror
  contradiction

theorem tallySpec_getPlayer (hg : g.request = .vote sid d)
    : TallySpec digest salt (fun player g' => g'.request = g.request ∧ g'.progress = g.progress
          ∧ ∀ p, player = some p → g'.actor = some p.userId)
        (onServer (getPlayer sid)) g := by
  intro e s
  dsimp only [serverView]
  split
  next player hplayer =>
    refine ⟨⟨rfl, by intro h; contradiction, fun sid' d' hvote => ⟨by intro h; contradiction, fun userId huserId => ?_⟩⟩,
      rfl, rfl, fun p hp => ?_⟩
    . obtain ⟨rfl, -⟩ := PollRequest.vote.inj (hg.symm.trans hvote)
      exact ⟨player, hplayer, Option.some.inj huserId⟩
    . exact congrArg (some ·.userId) (Option.some.inj hp)
  next =>
    refine ⟨tallyStep_unheard ⟨rfl, rfl, rfl⟩ rfl, rfl, rfl, fun p hp => ?_⟩
    contradiction

theorem tallySpec_castVote {β : Type} {messageId userId : String} {sent : List Json}
    {f : Option PollTally → Polls β} {post : β → VoteMemory → Prop} (hg : g.progress = .undecided)
    (hcasts : g.Casts messageId userId sent) (hnone : TallySpec digest salt post (f none) g)
    (hsome : ∀ tally g', g'.progress = .accepted → TallySpec digest salt post (f (some tally)) g')
    : TallySpec digest salt post (castVote digest salt messageId userId sent >>= f) g := by
  refine Prog.Spec.bind_iff.2 (Prog.Spec.atom_iff.2 fun e s => ?_)
  dsimp only
  split
  next =>
    have hquiet : Label.quiet.Unheard := ⟨rfl, rfl, rfl⟩
    rw [VoteMemory.next_unheard hquiet]
    exact ⟨tallyStep_unheard hquiet rfl, hnone⟩
  next hnew =>
    refine ⟨⟨hg, hcasts, ?_, rfl⟩, hsome _ _ rfl⟩
    simpa using hnew

theorem tallySpec_votePoll (hrequest : g.request = .vote sid d) (hprogress : g.progress = .undecided)
    : TallySpec digest salt (fun _ _ => True) (votePoll digest salt sid d) g := by
  have hrefuse (text : String) (reqId : Option String) {g' : VoteMemory} (hg' : g'.progress = .undecided)
      : TallySpec digest salt (fun _ _ => True) (onServer (respondError sid 53 text reqId)) g' :=
    tallySpec_respondError text reqId (by rw [hg']; exact VoteProgress.noConfusion)
  refine tallySpec_onServer_bind (.atom fun _ _ => ⟨rfl, rfl, rfl⟩) fun hit => ?_
  split
  . exact hrefuse _ _ hprogress
  . split
    next messageId hmessage =>
      dsimp only
      split
      . exact hrefuse _ _ hprogress
      . refine Prog.Spec.bind_iff.2 ((tallySpec_getPlayer hrequest).mono fun found g' hfound => ?_)
        obtain ⟨hrequest', hprogress', hactor⟩ := hfound
        rw [hrequest] at hrequest'
        rw [hprogress] at hprogress'
        split
        next player hplayer =>
          obtain ⟨hfound, -⟩ := Option.filter_eq_some_iff.1 hplayer
          refine tallySpec_onServer_bind (emits_look _) fun roomId => ?_
          split
          next roomId =>
            have hcasts : g'.Casts messageId player.userId (sentChoices d) :=
              ⟨sid, d, hrequest', hmessage, rfl, hactor player hfound⟩
            refine tallySpec_castVote hprogress' hcasts (hrefuse _ _ hprogress') fun tally g'' haccepted => ?_
            refine tallySpec_onServer_bind (emits_look _) fun recipients => ?_
            refine tallySpec_onServer_bind (emits_sendPollState _ _ _ _) fun _ => ?_
            exact tallySpec_respondOk _ _ haccepted
          next => exact hrefuse _ _ hprogress'
        next => exact hrefuse _ _ hprogress'
    next => exact hrefuse _ _ hprogress

theorem tallySpec_handle (req : PollRequest)
    : TallySpec digest salt (fun _ _ => True) (req.handle digest salt) { request := req } := by
  cases req with
  | vote sid d => exact Prog.Spec.bind_iff.2 ((tallySpec_votePoll rfl rfl).mono fun _ _ _ => trivial)
  | elsewhere p => exact tallySpec_elsewhere p ⟨rfl, VoteProgress.noConfusion⟩

end Steps

section Runs

variable {digest : List UInt8 → String} {salt : List UInt8} {p q : Prog.Pool Env PollState PollLabel VoteMemory Unit}
  {tr : List PollEvent} {i : Nat} {g : VoteMemory}

/--
Request number `i` makes a step of a kind.
-/
def MadeBy (kind : PollLabel → Bool) (i : Nat) (tr : List PollEvent) : Prop :=
  ∃ g e l, .act i g e l ∈ tr ∧ kind l = true

/--
The vote of request number `i` is accepted.
-/
def AcceptedBy (i : Nat) (tr : List PollEvent) : Prop := MadeBy (·.vote?.isSome) i tr

/--
The vote of request number `i` is answered with an error.
-/
def RefusedBy (i : Nat) (tr : List PollEvent) : Prop := MadeBy PollLabel.refuses i tr

/--
Request number `i` is a vote, and it is told that it has been counted.
-/
def ConfirmedBy (i : Nat) (tr : List PollEvent) : Prop :=
  ∃ sid d g e l, .act i g e l ∈ tr ∧ g.request = .vote sid d ∧ l.confirms = true

theorem not_mem_start {j : Nat} {e : Env} {l : PollLabel} {req : PollRequest}
    (h : Prog.Event.act i g e l ∈ tr ++ [Prog.Event.start j req]) : Prog.Event.act i g e l ∈ tr := by
  rcases List.mem_append.1 h with h | h
  . exact h
  . exact nomatch List.mem_singleton.1 h

theorem madeBy_concat_start {kind : PollLabel → Bool} {j : Nat} {req : PollRequest}
    : MadeBy kind i (tr ++ [.start j req]) ↔ MadeBy kind i tr := by
  constructor
  . rintro ⟨g, e, l, hmem, hkind⟩
    exact ⟨g, e, l, not_mem_start hmem, hkind⟩
  . rintro ⟨g, e, l, hmem, hkind⟩
    exact ⟨g, e, l, List.mem_append_left _ hmem, hkind⟩

theorem madeBy_concat_act {kind : PollLabel → Bool} {j : Nat} {e : Env} {l : PollLabel}
    : MadeBy kind i (tr ++ [.act j g e l]) ↔ MadeBy kind i tr ∨ i = j ∧ kind l = true := by
  constructor
  . rintro ⟨g', e', l', hmem, hkind⟩
    rcases List.mem_append.1 hmem with hmem | hmem
    . exact .inl ⟨g', e', l', hmem, hkind⟩
    . cases List.mem_singleton.1 hmem
      exact .inr ⟨rfl, hkind⟩
  . rintro (⟨g', e', l', hmem, hkind⟩ | ⟨rfl, hkind⟩)
    . exact ⟨g', e', l', List.mem_append_left _ hmem, hkind⟩
    . exact ⟨g, e, l, List.mem_append_right _ (List.mem_singleton_self _), hkind⟩

theorem run_tallyStep (h : Prog.Run (pollSystem digest salt) (fun _ _ _ _ _ => True) p tr q)
    (hthreads : p.threads = [])
    : Prog.Run (pollSystem digest salt) (TallyStep digest salt) p tr q
      ∧ ∀ th ∈ q.threads, TallySpec digest salt (fun _ _ => True) th.rest th.memory := by
  obtain ⟨hrun, hspec⟩ := h.of_spec (fun req => tallySpec_handle req) (by simp [hthreads])
  exact ⟨hrun.mono fun _ _ _ _ _ h => h.2, hspec⟩

theorem tally_of_insert {s s' : PollState} {messageId : String} {tally : PollTally}
    (h : s'.pollTallies = s.pollTallies.insert messageId tally) (messageId' : String)
    : s'.tally messageId' = if messageId' = messageId then tally else s.tally messageId' := by
  rw [PollState.tally, h, AssocMap.lookup_insert]
  split <;> rfl

theorem acceptedVotes_concat (messageId : String) (tr : List PollEvent) (ev : PollEvent)
    : acceptedVotes messageId (tr ++ [ev]) = acceptedVotes messageId tr ++ (voteIn messageId ev).toList := by
  rw [acceptedVotes, List.filterMap_append]
  cases hvote : voteIn messageId ev with
  | none => rw [List.filterMap_cons_none hvote]; rfl
  | some vote => rw [List.filterMap_cons_some hvote]; rfl

/--
What a request remembers is what has happened.
-/
structure VoteMemory.Sound (tr : List PollEvent) (i : Nat) (g : VoteMemory) : Prop where
  started : .start i g.request ∈ tr
  accepted : g.progress = .accepted ↔ AcceptedBy i tr
  refused : g.progress = .refused ↔ RefusedBy i tr
  actor (userId : String) : g.actor = some userId →
    ∃ g₀ e l, .act i g₀ e l ∈ tr ∧ g₀.request = g.request ∧ l.actor? = some userId

namespace VoteMemory.Sound

variable {e : Env} {l : PollLabel} {s s' : PollState}

theorem start (h : g.Sound tr i) (j : Nat) (req : PollRequest) : g.Sound (tr ++ [.start j req]) i where
  started := List.mem_append_left _ h.started
  accepted := h.accepted.trans madeBy_concat_start.symm
  refused := h.refused.trans madeBy_concat_start.symm
  actor userId huserId := by
    obtain ⟨g₀, e, l, hmem, hsame, hactor⟩ := h.actor userId huserId
    exact ⟨g₀, e, l, List.mem_append_left _ hmem, hsame, hactor⟩

theorem other (h : g.Sound tr i) {j : Nat} (hne : i ≠ j) (g' : VoteMemory) (e : Env) (l : PollLabel)
    : g.Sound (tr ++ [.act j g' e l]) i where
  started := List.mem_append_left _ h.started
  accepted := by simp [h.accepted, AcceptedBy, madeBy_concat_act, hne]
  refused := by simp [h.refused, RefusedBy, madeBy_concat_act, hne]
  actor userId huserId := by
    obtain ⟨g₀, e, l, hmem, hsame, hactor⟩ := h.actor userId huserId
    exact ⟨g₀, e, l, List.mem_append_left _ hmem, hsame, hactor⟩

theorem act (h : g.Sound tr i) (hstep : TallyStep digest salt g e s l s')
    : (g.next l).Sound (tr ++ [.act i g e l]) i where
  started := List.mem_append_left _ h.started
  accepted := by
    rw [AcceptedBy, madeBy_concat_act, ← AcceptedBy, ← h.accepted, VoteMemory.next, VoteProgress.next]
    cases l with
    | voted => simp [PollLabel.vote?]
    | server l =>
      by_cases hrefuses : (PollLabel.server l).refuses = true
      . simp [PollLabel.vote?, hrefuses, hstep.2.1 hrefuses]
      . simp [PollLabel.vote?, hrefuses]
  refused := by
    rw [RefusedBy, madeBy_concat_act, ← RefusedBy, ← h.refused, VoteMemory.next, VoteProgress.next]
    cases l with
    | voted => simp [PollLabel.vote?, PollLabel.refuses, hstep.1]
    | server l => by_cases hrefuses : (PollLabel.server l).refuses = true <;> simp [PollLabel.vote?, hrefuses]
  actor userId huserId := by
    have hnow := List.mem_append_right tr (List.mem_singleton_self (Prog.Event.act (ι := PollRequest) i g e l))
    rcases Option.or_eq_some_iff.1 huserId with hactor | ⟨-, hactor⟩
    . exact ⟨g, e, l, hnow, rfl, hactor⟩
    . obtain ⟨g₀, e₀, l₀, hmem, hsame, hactor⟩ := h.actor userId hactor
      exact ⟨g₀, e₀, l₀, List.mem_append_left _ hmem, hsame, hactor⟩

end VoteMemory.Sound

/--
What holds all through a run: of the tallies, and of what the requests remember.
-/
structure PollsSound (digest : List UInt8 → String) (salt : List UInt8) (tr : List PollEvent) (s : PollState)
    (memory : Nat → Option VoteMemory) : Prop where
  exact : ∀ messageId,
    (s.tally messageId).Exact (pollVoterHash digest salt messageId) (acceptedVotes messageId tr)
  requests : ∀ i g, memory i = some g → g.Sound tr i
  unborn : ∀ i, memory i = none → ∀ kind, ¬ MadeBy kind i tr

namespace PollsSound

variable {s s' : PollState} {m : Nat → Option VoteMemory} {e : Env} {l : PollLabel}

theorem exact_act (hinj : Function.Injective digest) (h : PollsSound digest salt tr s m)
    (hstep : TallyStep digest salt g e s l s') (messageId : String)
    : (s'.tally messageId).Exact (pollVoterHash digest salt messageId)
        (acceptedVotes messageId (tr ++ [.act i g e l])) := by
  rw [acceptedVotes_concat]
  cases l with
  | voted messageId' userId sent =>
    obtain ⟨-, -, hvoter, htallies⟩ := hstep
    rw [tally_of_insert htallies, voteIn]
    by_cases hsame : messageId = messageId'
    . subst hsame
      rw [if_pos rfl, if_pos rfl]
      exact (h.exact messageId).cast (pollVoterHash_injective hinj salt messageId) hvoter sent
    . rw [if_neg hsame, if_neg (Ne.symm hsame), Option.toList_none, List.append_nil]
      exact h.exact messageId
  | server l =>
    rw [PollState.tally, hstep.1, voteIn_server, Option.toList_none, List.append_nil]
    exact h.exact messageId

theorem act (hinj : Function.Injective digest) (h : PollsSound digest salt tr s m) (hm : m i = some g)
    (hstep : TallyStep digest salt g e s l s')
    : PollsSound digest salt (tr ++ [.act i g e l]) s' (Function.update m i (some (g.next l))) where
  exact := h.exact_act hinj hstep
  requests j g' hg' := by
    by_cases hji : j = i
    . subst hji
      rw [Function.update_self] at hg'
      obtain rfl := Option.some.inj hg'
      exact (h.requests j g hm).act hstep
    . rw [Function.update_of_ne hji] at hg'
      exact (h.requests j g' hg').other hji g e l
  unborn j hj kind := by
    by_cases hji : j = i
    . subst hji
      rw [Function.update_self] at hj
      contradiction
    . rw [Function.update_of_ne hji] at hj
      simp [madeBy_concat_act, hji, h.unborn j hj kind]

theorem start (h : PollsSound digest salt tr s m) (hm : m i = none) (req : PollRequest)
    : PollsSound digest salt (tr ++ [.start i req]) s (Function.update m i (some { request := req })) where
  exact messageId := by
    rw [acceptedVotes_concat, voteIn_start, Option.toList_none, List.append_nil]
    exact h.exact messageId
  requests j g' hg' := by
    by_cases hji : j = i
    . subst hji
      rw [Function.update_self] at hg'
      obtain rfl := Option.some.inj hg'
      exact
        { started := List.mem_append_right _ (List.mem_singleton_self _)
          accepted := by simp [AcceptedBy, madeBy_concat_start, h.unborn j hm]
          refused := by simp [RefusedBy, madeBy_concat_start, h.unborn j hm]
          actor := fun _ hactor => nomatch hactor }
    . rw [Function.update_of_ne hji] at hg'
      exact (h.requests j g' hg').start i req
  unborn j hj kind := by
    by_cases hji : j = i
    . subst hji
      rw [Function.update_self] at hj
      contradiction
    . rw [Function.update_of_ne hji] at hj
      rw [madeBy_concat_start]
      exact h.unborn j hj kind

theorem of_run (hinj : Function.Injective digest)
    (h : Prog.Run (pollSystem digest salt) (TallyStep digest salt) p tr q) (hthreads : p.threads = [])
    (hnew : p.state.pollTallies = ∅) : PollsSound digest salt tr q.state q.memory := by
  refine h.memory_induction (PollsSound digest salt) ?nil (fun tr s m i req hm h => h.start hm req)
    (fun tr s m i g e l s' hm hstep h => h.act hinj hm hstep)
  refine ⟨fun messageId => ?_, fun i g hg => ?_, ?_⟩
  . rw [PollState.tally, hnew]
    exact .nil _
  . simp [Prog.Pool.memory, hthreads] at hg
  . rintro i - kind ⟨g, e, l, hmem, -⟩
    contradiction

end PollsSound

/--
A vote belongs to a request that asks for it, and counts for the account that the session of the request belonged
to at some moment since the request came in.
-/
def BelongsTo (digest : List UInt8 → String) (salt : List UInt8)
    (p : Prog.Pool Env PollState PollLabel VoteMemory Unit) (tr : List PollEvent) (i : Nat)
    (messageId userId : String) (sent : List Json) : Prop :=
  ∃ sid d, .start i (.vote sid d) ∈ tr ∧ votedMessage d = some messageId ∧ sent = sentChoices d
    ∧ ∃ tr₁ r player, tr₁ <+: tr ∧ .start i (.vote sid d) ∈ tr₁
      ∧ Prog.Run (pollSystem digest salt) (fun _ _ _ _ _ => True) p tr₁ r
      ∧ r.state.app.players.lookup sid = some player ∧ player.userId = userId

theorem exists_of_mem_run (hinj : Function.Injective digest)
    (h : Prog.Run (pollSystem digest salt) (TallyStep digest salt) p tr q) (hthreads : p.threads = [])
    (hnew : p.state.pollTallies = ∅) {e : Env} {l : PollLabel} (hmem : .act i g e l ∈ tr)
    : ∃ tr₁ r s', tr₁ ++ [.act i g e l] <+: tr ∧ Prog.Run (pollSystem digest salt) (TallyStep digest salt) p tr₁ r
        ∧ TallyStep digest salt g e r.state l s' ∧ g.Sound tr₁ i := by
  obtain ⟨tr₁, tr₂, rfl⟩ := List.append_of_mem hmem
  obtain ⟨r, r', hrun, step, -⟩ := h.split_at
  obtain ⟨hstep, hmemory, -⟩ := step.memory_act
  have hsound := PollsSound.of_run hinj hrun hthreads hnew
  refine ⟨tr₁, r, r'.state, ⟨tr₂, by simp⟩, hrun, hstep, hsound.requests i g hmemory⟩

theorem belongsTo_of_mem (hinj : Function.Injective digest)
    (h : Prog.Run (pollSystem digest salt) (TallyStep digest salt) p tr q) (hthreads : p.threads = [])
    (hnew : p.state.pollTallies = ∅) {e : Env} {messageId userId : String} {sent : List Json}
    (hmem : .act i g e (.voted messageId userId sent) ∈ tr) : BelongsTo digest salt p tr i messageId userId sent := by
  obtain ⟨tr₁, r, s', hbegins, hrun, hstep, hsound⟩ := exists_of_mem_run hinj h hthreads hnew hmem
  obtain ⟨-, ⟨sid, d, hrequest, hmessage, hsent, hactor⟩, -⟩ := hstep
  have hsub : tr₁ <+: tr := (List.prefix_append _ _).trans hbegins
  obtain ⟨g₀, e₀, l₀, hmem₀, hsame, hfound⟩ := hsound.actor userId hactor
  -- the step that found the account was made before, on the session of the same request
  obtain ⟨tr₀, r₀, s₀, hbegins₀, hrun₀, hstep₀, hsound₀⟩ := exists_of_mem_run hinj hrun hthreads hnew hmem₀
  have hrequest₀ : g₀.request = .vote sid d := hsame.trans hrequest
  refine ⟨sid, d, hrequest ▸ hsub.subset hsound.started, hmessage, hsent, tr₀, r₀, ?_⟩
  cases l₀ with
  | voted => contradiction
  | server l₀ =>
    obtain ⟨player, hplayer, huserId⟩ := (hstep₀.2.2 sid d hrequest₀).2 userId hfound
    exact ⟨player, (List.prefix_append _ _).trans (hbegins₀.trans hsub), hrequest₀ ▸ hsound₀.started,
      hrun₀.mono fun _ _ _ _ _ _ => trivial, hplayer, huserId⟩

theorem acceptedBy_of_confirmedBy (hinj : Function.Injective digest)
    (h : Prog.Run (pollSystem digest salt) (TallyStep digest salt) p tr q) (hthreads : p.threads = [])
    (hnew : p.state.pollTallies = ∅) (hconfirmed : ConfirmedBy i tr) : AcceptedBy i tr := by
  obtain ⟨sid, d, g, e, l, hmem, hrequest, hconfirms⟩ := hconfirmed
  obtain ⟨tr₁, r, s', hbegins, -, hstep, hsound⟩ := exists_of_mem_run hinj h hthreads hnew hmem
  cases l with
  | voted => contradiction
  | server l =>
    obtain ⟨g', e', l', hmem', hvote⟩ := hsound.accepted.1 ((hstep.2.2 sid d hrequest).1 hconfirms)
    exact ⟨g', e', l', ((List.prefix_append _ _).trans hbegins).subset hmem', hvote⟩

/--
At every moment each tally is exactly that of the votes accepted so far; each of these votes is as its request
asks for it, in the name of the account of its session; only an accepted vote changes a tally; and a vote is
accepted if it is answered with a confirmation, and is not if it is answered with an error.
-/
theorem pollTallies_exact {digest : List UInt8 → String} (hinj : Function.Injective digest) {salt : List UInt8}
    {p q : Prog.Pool Env PollState PollLabel VoteMemory Unit} {tr : List PollEvent}
    (h : Prog.Run (pollSystem digest salt) (fun _ _ _ _ _ => True) p tr q) (hthreads : p.threads = [])
    (hnew : p.state.pollTallies = ∅)
    : (∀ messageId, (q.state.tally messageId).Exact (pollVoterHash digest salt messageId)
        (acceptedVotes messageId tr))
      ∧ (∀ i g e messageId userId sent, .act i g e (.voted messageId userId sent) ∈ tr →
          BelongsTo digest salt p tr i messageId userId sent)
      ∧ (∀ ev r, Prog.Step (pollSystem digest salt) (fun _ _ _ _ _ => True) q ev r →
          (∀ messageId, voteIn messageId ev = none) → r.state.pollTallies = q.state.pollTallies)
      ∧ ∀ i, (ConfirmedBy i tr → AcceptedBy i tr) ∧ (RefusedBy i tr → ¬ AcceptedBy i tr) := by
  obtain ⟨hrun, hspec⟩ := run_tallyStep h hthreads
  have hsound := PollsSound.of_run hinj hrun hthreads hnew
  refine ⟨hsound.exact, fun i g e messageId userId sent => belongsTo_of_mem hinj hrun hthreads hnew, ?unchanged,
    fun i => ⟨acceptedBy_of_confirmedBy hinj hrun hthreads hnew, ?rejected⟩⟩
  case unchanged =>
    intro ev r step hvote
    cases step with
    | start req => rfl
    | act i g act rest env hthread _ =>
      obtain ⟨hstep, -⟩ := hspec _ (List.mem_of_getElem? hthread) env q.state
      cases hlabel : (act env q.state).1 with
      | voted messageId userId sent =>
        have hnone := hvote messageId
        rw [hlabel, voteIn, if_pos rfl] at hnone
        contradiction
      | server l =>
        rw [hlabel] at hstep
        exact hstep.1
  case rejected =>
    intro hrefused haccepted
    cases hmemory : q.memory i with
    | none => exact hsound.unborn i hmemory _ hrefused
    | some g =>
      have hboth := ((hsound.requests i g hmemory).refused.2 hrefused).symm.trans
        ((hsound.requests i g hmemory).accepted.2 haccepted)
      contradiction

/--
Two sessions of one account and one of another in a room with one message, and no votes yet.
-/
def onePoll : Prog.Pool Env PollState PollLabel VoteMemory Unit :=
  { state :=
      { app :=
          { players := [("laptop", "anna"), ("phone", "anna"), ("desk", "carl")].foldr (fun entry players =>
              players.insert entry.1 { id := entry.1, userId := entry.2, rooms := ["commons1"] }) ∅
            roomMessages := AList.insert "commons1"
              [{ messageId := "m", roomId := "commons1", user := "Ben", username := "Ben", userId := "ben"
                 text := "poll", timestamp := 0 }] ∅ } }
    threads := [] }

def voteOf (sid : String) (choices : List Json) : PollRequest :=
  .vote sid (.obj [("messageId", .str " m "), ("choices", .arr choices)])

def refusesVote (i : Nat) : PollEvent → Bool
  | .act j _ _ l => i == j && l.refuses
  | .start _ _ => false

theorem refusedBy_of_refusesVote {ev : PollEvent} (hmem : ev ∈ tr) (h : refusesVote i ev = true) : RefusedBy i tr := by
  cases ev with
  | start => contradiction
  | act j g e l =>
    rw [refusesVote, Bool.and_eq_true, beq_iff_eq] at h
    obtain ⟨rfl, hrefuses⟩ := h
    exact ⟨g, e, l, hmem, hrefuses⟩

/--
Anna votes, and tries once more from another session; then Carl votes.
-/
def threeVotes : List (Prog.Cmd PollRequest Env) :=
  Prog.Cmd.serve (voteOf "laptop" [.int 1, .int 12, .int 1]) 0 9 .calm
    ++ Prog.Cmd.serve (voteOf "phone" [.int 0]) 1 5 .calm
    ++ Prog.Cmd.serve (voteOf "desk" [.int 1, .int 0]) 2 9 .calm

theorem pollTallies_exact_onePoll
    : ∃ tr q, Prog.Run (pollSystem hexEncode []) (fun _ _ _ _ _ => True) onePoll tr q
        ∧ (acceptedVotes "m" tr).map (·.1) = ["anna", "carl"] ∧ (q.state.tally "m").voters.length = 2
        ∧ ¬ AcceptedBy 1 tr := by
  obtain ⟨tr, q, hrun, htest⟩ := Prog.Run.exists_of_exec (pollSystem hexEncode []) (fun _ _ _ _ _ => true)
    threeVotes onePoll (fun tr _ => (acceptedVotes "m" tr).map (·.1) = ["anna", "carl"]
      && tr.any (refusesVote 1)) (by decide +kernel)
  have hrun := hrun.mono fun _ _ _ _ _ _ => trivial
  obtain ⟨hvotes, hrefused⟩ := Bool.and_eq_true_iff.1 htest
  have hvotes : (acceptedVotes "m" tr).map (·.1) = ["anna", "carl"] := of_decide_eq_true hvotes
  obtain ⟨hexact, -, -, hanswers⟩ := pollTallies_exact hexEncode_injective hrun rfl rfl
  refine ⟨tr, q, hrun, hvotes, ?_, (hanswers 1).2 ?_⟩
  . rw [(hexact "m").total, ← List.length_map (f := (·.1)), hvotes]
    rfl
  . obtain ⟨ev, hmem, hev⟩ := List.any_eq_true.1 hrefused
    exact refusedBy_of_refusesVote hmem hev

end Runs

end Lqxp
