import Mathlib.Data.List.DropRight
import Lqxp.Websocket.Protocol.Lemmas.Buffers
import Lqxp.Websocket.Protocol.Lemmas.Content

/-!
This module contains the invariant of the buffers: each one holds the latest messages of its room in the order in which
they were stored, and encrypted messages in it show nothing else. It also contains what becomes of deleted messages: they
stay deleted, and of all changes only a reaction can put something back into one.
-/

namespace Lqxp

def ChatMessageRecord.identity (message : ChatMessageRecord) : ChatMessageRecord :=
  { message with
    text := "", profile := {}, editedAt := none, reactions := [], attachment := none, encrypted := none
    preview := none, deleted := false, deletedBy := "", deletedByModerator := false }

/--
The messages that have been stored in a room since its buffer was last removed, as `stored` tells, after
one more event.
-/
def storeNext (roomId : String) (stored : List ChatMessageRecord)
    : ServerEvent → List ChatMessageRecord
  | .act _ _ _ (.changed room (.stored message)) =>
    if room = roomId then stored ++ [message] else stored
  | .act _ _ _ (.emptied room) => if room = roomId then [] else stored
  | _ => stored

/--
The messages stored in a room since its buffer was last removed, in the order of their storing.
-/
def storedMessages (roomId : String) (tr : List ServerEvent) : List ChatMessageRecord :=
  tr.foldl (storeNext roomId) []

/--
A deleted message has nothing left to show.
-/
def ChatMessageRecord.Blank (message : ChatMessageRecord) : Prop :=
  message.text = "" ∧ message.attachment.isNone ∧ message.encrypted.isNone ∧ message.preview.isNone
    ∧ message.reactions = []

instance (message : ChatMessageRecord) : Decidable message.Blank :=
  inferInstanceAs (Decidable (_ ∧ _))

def TombstonesBlank (s : AppState) : Prop :=
  ∀ roomId, ∀ message ∈ s.messages roomId, message.deleted → message.Blank

/--
What has become of a message: it is the same one, and it is still deleted if it was.
-/
structure ChatMessageRecord.Ages (old now : ChatMessageRecord) : Prop where
  identity : now.identity = old.identity
  deleted : old.deleted → now.deleted

/--
What has become of a buffer: the messages that it had, apart from the oldest ones, each as it is by now, and
then messages that have been stored meanwhile.
-/
def Aged (stored old now : List ChatMessageRecord) : Prop :=
  ∃ gone kept fresh, now = kept ++ fresh ∧ List.Forall₂ ChatMessageRecord.Ages (old.drop gone) kept
    ∧ fresh.map (·.identity) <:+ stored.map (·.identity)

/--
What has become of the buffers at the end of a run: nothing in them has lost its mark of deletion, and what
bears the mark is blank.
-/
structure TombstonesKept (tr : List ServerEvent) (s s' : AppState) : Prop where
  blank : TombstonesBlank s'
  aged (roomId : String) : Aged (storedMessages roomId tr) (s.messages roomId) (s'.messages roomId)

/--
In all runs whose steps are as `adm` says, deleted messages stay deleted and blank, from any state on.
-/
def TombstonesStayBlank (adm : Memory → Env → AppState → Label → AppState → Prop) : Prop :=
  ∀ (p q r : ServerPool) (tr tr' : List ServerEvent), p.threads = [] → TombstonesBlank p.state →
    Prog.Run server adm p tr q → Prog.Run server adm q tr' r → TombstonesKept tr' q.state r.state

/--
A reaction only goes to messages that are not deleted.
-/
def reactsToLive (_ : Memory) (_ : Env) (s : AppState) (l : Label) (_ : AppState) : Bool :=
  match l with
  | .changed roomId (.reacted messageId _ _) =>
    (findMessage messageId (s.messages roomId)).all fun message => !message.deleted
  | _ => true

theorem ChatMessageRecord.blank_clear (message : ChatMessageRecord) : message.clear.Blank :=
  ⟨rfl, rfl, rfl, rfl, rfl⟩

variable {g : Memory} {e : Env} {s s' : AppState} {l : Label}

theorem blank_change {roomId : String} {change : MessageChange}
    (hchange : g.MayChange e s roomId change) (hlive : reactsToLive g e s (.changed roomId change) s')
    (hblank : ∀ message ∈ s.messages roomId, message.deleted → message.Blank)
    : ∀ message ∈ change.apply (s.messages roomId), message.deleted → message.Blank := by
  intro message hmem hdeleted
  cases change with
  | stored stored =>
    obtain ⟨-, -, -, hnotDeleted, -⟩ := hchange
    rw [MessageChange.apply] at hmem
    rcases mem_pushMessage hmem with hold | heq
    . exact hblank message hold hdeleted
    . rw [heq, hnotDeleted] at hdeleted
      contradiction
  | reacted messageId emoji username =>
    rcases mem_modifyMessage hmem with hold | ⟨found, hfound, rfl⟩
    . exact hblank message hold hdeleted
    . obtain ⟨-, -, hsame⟩ := toggleReactionInMessage_id emoji username found
      rw [reactsToLive, hfound] at hlive
      rw [hsame] at hdeleted
      simp [hdeleted] at hlive
  | deleted messageId deletedBy byModerator =>
    rcases mem_modifyMessage hmem with hold | ⟨found, hfound, rfl⟩
    . exact hblank message hold hdeleted
    . exact found.blank_clear
  | cleared username =>
    obtain ⟨old, hold, rfl⟩ := List.mem_map.1 hmem
    by_cases hkeep : old.deleted || old.username ≠ username
    . rw [if_pos hkeep] at hdeleted ⊢
      exact hblank old hold hdeleted
    . rw [if_neg hkeep]
      exact old.blank_clear
  | edited messageId text profile encrypted editedAt =>
    obtain ⟨sid, d, userId, username, live, -, -, -, -, hlive, hnotDeleted, -⟩ := hchange
    rcases mem_modifyMessage hmem with hold | ⟨found, hfound, rfl⟩
    . exact hblank message hold hdeleted
    . obtain rfl : live = found := Option.some.inj (hlive.symm.trans hfound)
      rw [hnotDeleted] at hdeleted
      contradiction
  | decorated messageId preview =>
    obtain ⟨-, live, hlive, hnotDeleted⟩ := hchange
    rcases mem_modifyMessage hmem with hold | ⟨found, hfound, rfl⟩
    . exact hblank message hold hdeleted
    . obtain rfl : live = found := Option.some.inj (hlive.symm.trans hfound)
      rw [hnotDeleted] at hdeleted
      contradiction

theorem blank_step (h : Transition g e s l s') (hlive : reactsToLive g e s l s')
    (hblank : TombstonesBlank s) : TombstonesBlank s' := by
  refine h.forall_messages hblank ?_
  rintro roomId change rfl
  exact blank_change h.2 hlive (hblank roomId)

/--
A fact that relates a buffer to what has been stored there is kept by a step when the storing of a message,
all other changes and the removal of the buffer keep it.
-/
theorem buffer_step {roomId : String} {stored : List ChatMessageRecord} {i : Nat}
    (P : List ChatMessageRecord → List ChatMessageRecord → Prop)
    (h : P stored (s.messages roomId)) (hstep : Transition g e s l s')
    (hpush : ∀ message, l = .changed roomId (.stored message) →
      P (stored ++ [message]) (pushMessage message (s.messages roomId)))
    (hchange : ∀ change, l = .changed roomId change → (∀ message, change ≠ .stored message) →
      P stored (change.apply (s.messages roomId)))
    (hempty : P [] [])
    : P (storeNext roomId stored (.act i g e l)) (s'.messages roomId) := by
  by_cases hchanges : l.changes = some roomId
  . cases l with
    | changed roomId' change =>
      obtain rfl : roomId' = roomId := by simpa [Label.changes] using hchanges
      rw [hstep.1, AppState.messages_change, if_pos rfl]
      cases change with
      | stored message =>
        rw [storeNext, if_pos rfl]
        exact hpush message rfl
      | _ => exact hchange _ rfl (by simp)
    | emptied roomId' =>
      obtain rfl : roomId' = roomId := by simpa [Label.changes] using hchanges
      rw [hstep.messages_emptied, storeNext, if_pos rfl]
      exact hempty
    | _ => simp [Label.changes] at hchanges
  . rw [hstep.messages hchanges]
    have hstored : storeNext roomId stored (.act i g e l) = stored := by
      unfold storeNext
      split
      next heq =>
        cases heq
        exact if_neg fun hroom => hchanges (congrArg some hroom)
      next heq =>
        cases heq
        exact if_neg fun hroom => hchanges (congrArg some hroom)
      next => rfl
    rw [hstored]
    exact h

section Ages

variable {message : ChatMessageRecord} {messages : List ChatMessageRecord}

theorem ChatMessageRecord.Ages.refl (message : ChatMessageRecord) : message.Ages message := ⟨rfl, id⟩

theorem ChatMessageRecord.Ages.trans {message' message'' : ChatMessageRecord} (h : message.Ages message')
    (h' : message'.Ages message'') : message.Ages message'' :=
  ⟨h'.identity.trans h.identity, fun hdeleted => h'.deleted (h.deleted hdeleted)⟩

theorem ages_modifyMessage {messageId : String} {f : ChatMessageRecord → ChatMessageRecord}
    (hf : ∀ m : ChatMessageRecord, m.Ages (f m)) (messages : List ChatMessageRecord)
    : List.Forall₂ ChatMessageRecord.Ages messages (modifyMessage messageId f messages) := by
  induction messages with
  | nil => exact .nil
  | cons first rest ih =>
    rw [modifyMessage]
    split
    . exact .cons (hf first) (List.forall₂_same.2 fun m _ => .refl m)
    . exact .cons (.refl first) ih

theorem identity_toggleReactionInMessage (emoji username : String) (message : ChatMessageRecord)
    : (toggleReactionInMessage emoji username message).identity = message.identity := by
  unfold toggleReactionInMessage
  dsimp only
  split
  . split
    . rfl
    . rfl
  . rfl

theorem MessageChange.ages_apply {change : MessageChange} (hchange : ∀ message, change ≠ .stored message)
    (messages : List ChatMessageRecord)
    : List.Forall₂ ChatMessageRecord.Ages messages (change.apply messages) := by
  cases change with
  | stored message => exact absurd rfl (hchange message)
  | reacted messageId emoji username =>
    refine ages_modifyMessage (fun m => ⟨identity_toggleReactionInMessage emoji username m, ?_⟩) messages
    rw [(toggleReactionInMessage_id emoji username m).2.2]
    exact id
  | cleared username =>
    refine List.forall₂_map_right_iff.2 (List.forall₂_same.2 fun m _ => ?_)
    split
    . exact .refl m
    . exact ⟨rfl, fun _ => rfl⟩
  | deleted messageId deletedBy byModerator =>
    refine ages_modifyMessage ?_ messages
    intro m
    exact ⟨rfl, fun _ => rfl⟩
  | edited | decorated =>
    refine ages_modifyMessage ?_ messages
    intro m
    exact ⟨rfl, id⟩

theorem identity_of_ages {messages' : List ChatMessageRecord}
    (h : List.Forall₂ ChatMessageRecord.Ages messages messages')
    : messages'.map (·.identity) = messages.map (·.identity) := by
  induction h with
  | nil => rfl
  | cons hfirst hrest ih => rw [List.map_cons, List.map_cons, hfirst.identity, ih]

theorem ages_trans {messages' messages'' : List ChatMessageRecord}
    (h : List.Forall₂ ChatMessageRecord.Ages messages messages')
    (h' : List.Forall₂ ChatMessageRecord.Ages messages' messages'')
    : List.Forall₂ ChatMessageRecord.Ages messages messages'' := by
  induction h generalizing messages'' with
  | nil => exact h'
  | cons hfirst hrest ih =>
    cases h' with
    | cons hfirst' hrest' => exact .cons (hfirst.trans hfirst') (ih hrest')

end Ages

namespace Aged

variable {roomId : String} {stored old now : List ChatMessageRecord}

theorem refl (old : List ChatMessageRecord) : Aged [] old old :=
  ⟨0, old, [], by simp, List.forall₂_same.2 fun m _ => .refl m, List.suffix_refl _⟩

theorem empty (old : List ChatMessageRecord) : Aged [] old [] :=
  ⟨old.length, [], [], rfl, by simp, List.suffix_refl _⟩

theorem push (h : Aged stored old now) (message : ChatMessageRecord)
    : Aged (stored ++ [message]) old (pushMessage message now) := by
  obtain ⟨gone, kept, fresh, rfl, hkept, fresher, hfresh⟩ := h
  rw [pushMessage]
  generalize (kept ++ fresh ++ [message]).length - maxRoomMessages = excess
  refine ⟨gone + excess, kept.drop excess, (fresh ++ [message]).drop (excess - kept.length), ?_, ?_, ?_⟩
  . rw [List.append_assoc, List.drop_append]
  . rw [← List.drop_drop]
    exact List.forall₂_drop excess hkept
  . rw [List.map_drop]
    refine (List.drop_suffix _ _).trans ⟨fresher, ?_⟩
    rw [List.map_append, ← List.append_assoc, hfresh, List.map_append]

theorem change (h : Aged stored old now) {now' : List ChatMessageRecord}
    (hchange : List.Forall₂ ChatMessageRecord.Ages now now') : Aged stored old now' := by
  obtain ⟨gone, kept, fresh, rfl, hkept, hfresh⟩ := h
  refine ⟨gone, now'.take kept.length, now'.drop kept.length, (List.take_append_drop ..).symm, ?_, ?_⟩
  . have hkept' := List.forall₂_take kept.length hchange
    rw [List.take_left] at hkept'
    exact ages_trans hkept hkept'
  . have hfresh' := List.forall₂_drop kept.length hchange
    rw [List.drop_left] at hfresh'
    rwa [identity_of_ages hfresh']

end Aged

theorem aged_of_steps {adm : Memory → Env → AppState → Label → AppState → Prop} {q r : ServerPool}
    {tr : List ServerEvent}
    (hsteps : Prog.Run server (fun g e s l s' => adm g e s l s' ∧ Transition g e s l s') q tr r)
    (roomId : String)
    : Aged (storedMessages roomId tr) (q.state.messages roomId) (r.state.messages roomId) := by
  induction hsteps with
  | nil => exact .refl _
  | snoc run step ih =>
    rw [storedMessages, List.foldl_concat]
    cases step with
    | start req => exact ih
    | act i g act rest env hthread hadm =>
      refine buffer_step (fun stored now => Aged stored _ now) ih hadm.2 ?push ?change (.empty _)
      case push => exact fun message _ => ih.push message
      case change => exact fun change _ hchange => ih.change (change.ages_apply hchange _)

/--
As long as nobody reacts to a deleted message, deleted messages stay deleted and blank.
-/
theorem tombstonesStayBlank (p q r : ServerPool) (tr tr' : List ServerEvent) (hp : p.threads = [])
    (hblank : TombstonesBlank p.state)
    (hrun : Prog.Run server (fun g e s l s' => reactsToLive g e s l s') p tr q)
    (hrun' : Prog.Run server (fun g e s l s' => reactsToLive g e s l s') q tr' r)
    : TombstonesKept tr' q.state r.state := by
  obtain ⟨hsteps, hspec⟩ := hrun.of_spec Sound.handle (by simp [hp])
  have hsteps' := (hrun'.of_spec Sound.handle hspec).1
  refine ⟨?_, aged_of_steps hsteps'⟩
  refine (hsteps.append hsteps').state_invariant TombstonesBlank ?_ hblank
  intro g e s l s' hstep hblank
  exact blank_step hstep.2 hstep.1 hblank

section Revival

def chattingServer : ServerPool :=
  idleServer [{ id := "a", userId := "u", username := "uwe", rooms := ["classroom"] }] [] []

def write (i : Nat) (randomId : String) : List (Prog.Cmd Request Env) :=
  Prog.Cmd.serve (.message "a" .send (.obj [("gameId", .str "classroom"), ("text", .str "hello")])) i 8
    { now := 500 * i, randomId }

def writeAndRemove : List (Prog.Cmd Request Env) :=
  write 0 "m" ++ Prog.Cmd.serve (.message "a" .delete (.obj [("messageId", .str "m")])) 1 6 .calm

/--
The deleted message cannot be edited, and another one comes after it.
-/
def writeOn : List (Prog.Cmd Request Env) :=
  Prog.Cmd.serve (.message "a" .edit (.obj [("messageId", .str "m"), ("text", .str "again")])) 2 2 .calm
    ++ write 3 "n"

def revive : List (Prog.Cmd Request Env) :=
  Prog.Cmd.serve
    (.message "a" .react (.obj [("messageId", .str "m"), ("reaction", .str "x")])) 2 6 .calm

def hasTombstone (s : AppState) : Bool := (s.messages "classroom").any (·.deleted)

theorem tombstonesBlank_chattingServer : TombstonesBlank chattingServer.state := by
  intro roomId message hmem
  simp [chattingServer, idleServer, AppState.messages] at hmem

theorem tombstonesStayBlank_writeOn
    : ∃ tr tr', ∃ q r : ServerPool,
        hasTombstone q.state
          ∧ (r.state.messages "classroom").map (fun m => (m.messageId, m.deleted)) = [("m", true), ("n", false)]
          ∧ Prog.Run server (fun g e s l s' => reactsToLive g e s l s') chattingServer tr q
          ∧ Prog.Run server (fun g e s l s' => reactsToLive g e s l s') q tr' r
          ∧ TombstonesKept tr' q.state r.state := by
  obtain ⟨tr, q, tr', r, hrun, hrun', htest⟩ := Prog.Run.exists_two_of_exec server reactsToLive
    writeAndRemove writeOn chattingServer
    (fun q r => hasTombstone q.state && (r.state.messages "classroom").map
      (fun m => (m.messageId, m.deleted)) = [("m", true), ("n", false)])
    (by decide +kernel)
  obtain ⟨hdeleted, hmessages⟩ := Bool.and_eq_true_iff.1 htest
  exact ⟨tr, tr', q, r, hdeleted, of_decide_eq_true hmessages, hrun, hrun',
    tombstonesStayBlank _ q r tr tr' rfl tombstonesBlank_chattingServer hrun hrun'⟩

/--
A reaction to the deleted message stays with it.
-/
theorem not_tombstonesStayBlank : ¬ TombstonesStayBlank fun _ _ _ _ _ => True := by
  intro h
  obtain ⟨tr, q, tr', r, hrun, hrun', htest⟩ := Prog.Run.exists_two_of_exec server (fun _ _ _ _ _ => true)
    writeAndRemove revive chattingServer
    (fun q r => hasTombstone q.state && (r.state.messages "classroom").any fun message =>
      message.deleted && message.reactions.length = 1)
    (by decide +kernel)
  have hkept := h _ q r tr tr' rfl tombstonesBlank_chattingServer
    (hrun.mono fun _ _ _ _ _ _ => trivial) (hrun'.mono fun _ _ _ _ _ _ => trivial)
  obtain ⟨message, hmem, hmessage⟩ := List.any_eq_true.1 (Bool.and_eq_true_iff.1 htest).2
  simp only [Bool.and_eq_true, decide_eq_true_eq] at hmessage
  obtain ⟨-, -, -, -, hreactions⟩ := hkept.blank "classroom" message hmem hmessage.1
  simp [hreactions] at hmessage

end Revival

/--
The buffer of a room is the end of what has been stored there, and encrypted messages are exclusive.
-/
structure Buffered (roomId : String) (stored messages : List ChatMessageRecord) : Prop where
  latest
    : messages.map (·.identity) = (stored.map (·.identity)).rtake maxRoomMessages
  exclusive : ∀ message ∈ messages, message.Exclusive roomId

theorem rtake_concat_rtake (l : List α) (x : α) (n : Nat)
    : (l.rtake (n + 1) ++ [x]).rtake (n + 1) = (l ++ [x]).rtake (n + 1) := by
  rw [List.rtake_concat_succ, List.rtake_concat_succ]
  simp only [List.rtake_eq_reverse_take_reverse, List.reverse_reverse, List.take_take]
  rw [Nat.min_eq_left (Nat.le_succ n)]

theorem identity_pushMessage (message : ChatMessageRecord) (messages : List ChatMessageRecord)
    : (pushMessage message messages).map (·.identity)
        = (messages.map (·.identity) ++ [message.identity]).rtake maxRoomMessages := by
  rw [pushMessage, List.rtake]
  simp only [List.map_drop, List.map_append, List.map_cons, List.map_nil, List.length_append,
    List.length_map, List.length_cons, List.length_nil]

namespace Buffered

variable {roomId : String} {stored messages : List ChatMessageRecord}

theorem empty (roomId : String) : Buffered roomId [] [] := ⟨rfl, by simp⟩

theorem push (h : Buffered roomId stored messages) {message : ChatMessageRecord}
    (hmessage : message.Exclusive roomId)
    : Buffered roomId (stored ++ [message]) (pushMessage message messages) where
  latest := by
    rw [identity_pushMessage, h.latest, List.map_append, List.map_singleton]
    exact rtake_concat_rtake _ _ 149
  exclusive m hm := by
    rcases mem_pushMessage hm with hold | rfl
    . exact h.exclusive m hold
    . exact hmessage

theorem exclusive_modifyMessage (h : Buffered roomId stored messages) {messageId : String}
    {f : ChatMessageRecord → ChatMessageRecord}
    (hf : ∀ m, m.Exclusive roomId → (f m).Exclusive roomId)
    : ∀ m ∈ modifyMessage messageId f messages, m.Exclusive roomId := by
  intro m hm
  rcases mem_modifyMessage hm with hold | ⟨found, hfound, rfl⟩
  . exact h.exclusive m hold
  . exact hf found (h.exclusive found (findMessage_eq_some hfound).1)

theorem exclusive_of_none {message : ChatMessageRecord} (h : message.encrypted = none)
    : message.Exclusive roomId := by
  intro payload hpayload
  rw [h] at hpayload
  contradiction

theorem exclusive_toggleReactionInMessage (emoji username : String) {message : ChatMessageRecord}
    (h : message.Exclusive roomId) : (toggleReactionInMessage emoji username message).Exclusive roomId := by
  unfold toggleReactionInMessage
  dsimp only
  split
  . split
    . exact h
    . exact h
  . exact h

theorem change (h : Buffered roomId stored messages) {change : MessageChange}
    (hlabel : (Label.changed roomId change).Exclusive) (hchange : ∀ message, change ≠ .stored message)
    : Buffered roomId stored (change.apply messages) where
  latest := by rw [identity_of_ages (MessageChange.ages_apply hchange _), h.latest]
  exclusive := by
    cases change with
    | stored message => exact absurd rfl (hchange message)
    | reacted messageId emoji username =>
      exact h.exclusive_modifyMessage fun m hm => exclusive_toggleReactionInMessage emoji username hm
    | deleted messageId deletedBy byModerator =>
      exact h.exclusive_modifyMessage fun m hm => exclusive_of_none rfl
    | cleared username =>
      intro m hm
      obtain ⟨old, hold, rfl⟩ := List.mem_map.1 hm
      split
      . exact h.exclusive old hold
      . exact exclusive_of_none rfl
    | edited messageId text profile encrypted editedAt =>
      refine h.exclusive_modifyMessage fun m hm payload hpayload => ?_
      obtain ⟨htext, hroom⟩ := hlabel payload hpayload
      exact ⟨htext, rfl, hroom⟩
    | decorated messageId preview =>
      exact h.exclusive_modifyMessage fun m hm => hm

theorem step {g : Memory} {e : Env} {s s' : AppState} {l : Label} {i : Nat}
    (h : Buffered roomId stored (s.messages roomId)) (hstep : Transition g e s l s')
    (hlabel : l.Exclusive)
    : Buffered roomId (storeNext roomId stored (.act i g e l)) (s'.messages roomId) := by
  refine buffer_step (Buffered roomId) h hstep ?push ?change (empty roomId)
  case push =>
    rintro message rfl
    exact h.push hlabel
  case change =>
    rintro change rfl hchange
    exact h.change hlabel hchange

end Buffered

theorem exclusive_handle (req : Request) : (server.handle req).Emits Label.Exclusive := by
  have hother (hmessage : ∀ sid op d, req ≠ .message sid op d)
      : (server.handle req).Emits Label.Exclusive := by
    refine .of_spec (fun g => g.req = req) ?_ (Sound.handle req) rfl
    intro g e s l s' hreq hstep
    refine ⟨?_, (Memory.next_req g l).trans hreq⟩
    cases l with
    | changed roomId change =>
      cases change with
      | stored message =>
        have hstored := hstep.2.1
        rw [hreq] at hstored
        cases req with
        | message sid op d => exact absurd rfl (hmessage sid op d)
        | _ => contradiction
      | edited messageId text profile encrypted editedAt =>
        obtain ⟨-, sid, d, -, -, -, hreq', -⟩ := hstep
        exact absurd (hreq.symm.trans hreq') (hmessage sid .edit d)
      | _ => trivial
    | _ => trivial
  cases req with
  | message sid op d => exact .bind (Exclusive.handler op sid d) fun _ => .pure _
  | _ => exact hother (by simp)

/--
In every state that a server reaches, the buffer of every room holds the last messages stored there since
it was last removed, in order, and its encrypted messages show nothing else and belong to the room.
-/
theorem buffered_of_run {adm : Memory → Env → AppState → Label → AppState → Prop}
    {p q : ServerPool} {tr : List ServerEvent} (hp : p.threads = [])
    (hempty : p.state.roomMessages = ∅) (hrun : Prog.Run server adm p tr q) (roomId : String)
    : Buffered roomId (storedMessages roomId tr) (q.state.messages roomId) := by
  have hsteps := ((transition_of_run hrun hp).of_spec (fun req => (exclusive_handle req).spec _)
    (by simp [hp])).1
  clear hrun
  induction hsteps with
  | nil =>
    rw [AppState.messages, hempty]
    exact .empty roomId
  | snoc run step ih =>
    rw [storedMessages, List.foldl_concat]
    cases step with
    | start req => exact ih
    | act i g act rest env hthread hadm => exact ih.step hadm.1.2 hadm.2

section Chat

/--
A message with an encrypted payload for the room.
-/
def encryptedMessage : Json :=
  .obj [("gameId", .str "classroom"), ("encrypted", .obj [("v", .int 2), ("alg", .str "A"),
    ("iv", .str "i"), ("salt", .str "s"), ("n", .int 1), ("senderDeviceId", .str "d"),
    ("senderSigningKey", .obj []), ("signature", .str "g"), ("ciphertext", .str "c"),
    ("roomId", .str "classroom")])]

/--
Somebody writes a message and another one that is encrypted, and then deletes the first one.
-/
def chat : List (Prog.Cmd Request Env) :=
  Prog.Cmd.serve (.message "a" .send (.obj [("gameId", .str "classroom"), ("text", .str "hello")]))
      0 8 { randomId := "m" }
    ++ Prog.Cmd.serve (.message "a" .send encryptedMessage) 1 8 { now := 500, randomId := "n" }
    ++ Prog.Cmd.serve (.message "a" .delete (.obj [("messageId", .str "m")])) 2 6 { now := 600 }

theorem buffered_of_run_chat
    : ∃ tr, ∃ q : ServerPool,
        Buffered "classroom" (storedMessages "classroom" tr) (q.state.messages "classroom")
          ∧ (q.state.messages "classroom").map (fun m => (m.messageId, m.deleted, m.encrypted.isSome))
            = [("m", true, false), ("n", false, true)] := by
  let p := idleServer [{ id := "a", userId := "u", username := "uwe", rooms := ["classroom"] }] [] []
  obtain ⟨tr, q, hrun, htest⟩ := Prog.Run.exists_of_exec server (fun _ _ _ _ _ => true) chat p
    (fun _ q => (q.state.messages "classroom").map
      (fun m => (m.messageId, m.deleted, m.encrypted.isSome)) = [("m", true, false), ("n", false, true)])
    (by decide +kernel)
  exact ⟨tr, q, buffered_of_run rfl rfl hrun "classroom", of_decide_eq_true htest⟩

end Chat

end Lqxp
