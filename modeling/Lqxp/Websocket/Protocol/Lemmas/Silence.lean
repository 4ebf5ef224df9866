import Lqxp.Websocket.Protocol.Lemmas.Authors

/-!
This module contains what a request of an account that may not speak in a room can do to the messages of
that room, while nothing else happens: it can delete some of them and edit those of the account.
-/

namespace Lqxp

/--
What stays true while a request about messages of an account is served that may not speak in a room.
-/
structure Silenced (sid : String) (op : Op) (d : Json) (userId roomId : String) (room : RoomRecord)
    (g : Memory) (s : AppState) : Prop where
  req : g.req = .message sid op d
  session (player : PlayerSession) : s.players.lookup sid = some player → player.userId = userId
  stored : s.database.lookup roomId = some room
  base (snapshot : Option RoomRecord) : g.base = some (roomId, snapshot) → snapshot = some room
  actor (userId' username : String) : g.actor = some (userId', username) → userId' = userId
  now (now : Nat) : g.now = some now → canSpeak room userId now = false
  located (messageId roomId' : String)
    : g.located = some (messageId, roomId') → op = .react → hasMessage messageId (s.messages roomId')
  authored : Authored s
  named : g.Named

/--
The steps of such a request: statements succeed, the account may not speak at the time, and the ids of
new messages are new.
-/
def silencedStep (userId : String) (room : RoomRecord) (e : Env) (s : AppState) (l : Label) : Bool :=
  !e.dbFails && !canSpeak room userId e.now && freshId s l

variable {g : Memory} {e : Env} {s s' : AppState} {l : Label}
variable {sid : String} {op : Op} {d : Json} {userId roomId : String} {room : RoomRecord}

theorem stores_eq_none (h : Transition g e s l s') (hreq : g.req = .message sid op d)
    (hop : op.onMessages) : l.stores = none := by
  have hop? : g.req.op? = some op := by rw [hreq]; rfl
  have hnot (op' : Op) (h : g.req.op? = some op') : op'.onMessages := by
    obtain rfl : op = op' := by simpa [hop?] using h
    exact hop
  cases l with
  | wrote roomId record =>
    obtain ⟨-, snapshot, edit, -, hmakes, -⟩ := h
    have hnotStores : g.req.concernsRooms = false := by simp [Request.concernsRooms, hop?, hop]
    cases edit with
    | refresh | setIcon => simp [hnotStores, Memory.Makes] at hmakes
    | setTitle | setDescription | setChatLock | setModeratorPermissions | setCallsEnabled =>
      exact absurd (hnot _ hmakes) (by decide)
    | setRole | transfer | ban | unban | timeout | unmute =>
      exact absurd (hnot _ hmakes.1) (by decide)
  | created roomId record =>
    obtain ⟨-, -, sid', d', hreq', -⟩ := h
    exact absurd (hnot .create (by rw [hreq']; rfl)) (by decide)
  | erased roomId => exact absurd (hnot _ h.2) (by decide)
  | _ => rfl

namespace Silenced

variable (hsilenced : Silenced sid op d userId roomId room g s)

include hsilenced

theorem session_step (hop : op.onMessages) (h : Transition g e s l s') (player' : PlayerSession)
    (hplayer' : s'.players.lookup sid = some player') : player'.userId = userId := by
  rcases h.session hplayer' with ⟨player, hplayer, -, huser, -⟩ | ⟨rfl, -⟩ | ⟨rfl, -⟩
  . rw [← huser]
    exact hsilenced.session player hplayer
  . have hreq := hsilenced.req.symm.trans h.2
    contradiction
  . have hop' := h.1
    rw [hsilenced.req] at hop'
    obtain rfl : op = .identify := by simpa [Request.op?] using hop'
    contradiction

theorem base_step (hop : op.onMessages) (h : Transition g e s l s') (hreads : e.dbFails = false)
    (snapshot : Option RoomRecord) (hbase : (g.next l).base = some (roomId, snapshot))
    : snapshot = some room := by
  have hstores := stores_eq_none h hsilenced.req hop
  cases l with
  | read roomId' result =>
    simp only [Memory.next] at hbase
    split at hbase
    . exact hsilenced.base snapshot hbase
    . obtain ⟨rfl, rfl⟩ : roomId' = roomId ∧ result = snapshot := by simpa using hbase
      rw [h.2, Env.readRoom, hreads]
      exact hsilenced.stored
  | wrote | created | erased => simp [Label.stores] at hstores
  | _ => exact hsilenced.base snapshot hbase

theorem actor_step (h : Transition g e s l s') (userId' username : String)
    (hactor : (g.next l).actor = some (userId', username)) : userId' = userId := by
  cases l with
  | actor =>
    obtain ⟨-, sid', player, hsid, hplayer, rfl, rfl⟩ := h
    obtain rfl : sid = sid' := by simpa [hsilenced.req, Request.sid?] using hsid
    obtain ⟨rfl, -⟩ : player.userId = userId' ∧ _ := by simpa [Memory.next] using hactor
    exact hsilenced.session player hplayer
  | wrote roomId' record =>
    rw [(Memory.Follows.wrote g roomId' record).actor] at hactor
    exact hsilenced.actor userId' username hactor
  | _ => exact hsilenced.actor userId' username hactor

theorem located_step (h : Transition g e s l s') (messageId roomId' : String)
    (hlocated : (g.next l).located = some (messageId, roomId')) (hreact : op = .react)
    : hasMessage messageId (s'.messages roomId') := by
  have hop : g.req.op? = some .react := by rw [hsilenced.req, hreact]; rfl
  have hframe (hlocated : g.located = some (messageId, roomId')) (hchanges : l.changes ≠ some roomId')
      : hasMessage messageId (s'.messages roomId') := by
    rw [h.messages hchanges]
    exact hsilenced.located messageId roomId' hlocated hreact
  cases l with
  | located messageId' roomId'' =>
    obtain ⟨rfl, rfl⟩ : messageId' = messageId ∧ roomId'' = roomId' := by
      simpa [Memory.next] using hlocated
    rw [h.1]
    exact h.2
  | changed roomId'' change =>
    by_cases hsame : roomId'' = roomId'
    . subst hsame
      obtain ⟨rfl, hmay⟩ := h
      rw [AppState.messages_change, if_pos rfl]
      have hold := hsilenced.located messageId roomId'' hlocated hreact
      cases change with
      | reacted messageId' emoji username =>
        rw [MessageChange.apply, hasMessage_modifyMessage]
        . exact hold
        . exact fun m => (toggleReactionInMessage_id emoji username m).1
      | stored => simpa [hop] using hmay.1
      | cleared =>
        rw [Memory.MayChange, hsilenced.req, hreact] at hmay
        contradiction
      | deleted =>
        obtain ⟨sid', d', player, message, hreq, -⟩ := hmay
        simp [hreq, Request.op?] at hop
      | edited =>
        obtain ⟨sid', d', userId', username, message, hreq, -⟩ := hmay
        simp [hreq, Request.op?] at hop
      | decorated =>
        obtain ⟨⟨n, hreq⟩, -⟩ := hmay
        simp [hreq, Request.op?] at hop
    . exact hframe hlocated (by simpa [Label.changes] using hsame)
  | emptied roomId'' => simpa [hop] using h.2
  | wrote roomId'' record =>
    have hstores := stores_eq_none h hsilenced.req (by rw [hreact]; rfl)
    simp [Label.stores] at hstores
  | _ => exact hframe hlocated (by simp [Label.changes])

theorem now_step (h : Transition g e s l s') (hspeak : canSpeak room userId e.now = false) (now : Nat)
    (hnow : (g.next l).now = some now) : canSpeak room userId now = false := by
  cases l with
  | clock now' =>
    obtain rfl : now' = now := by simpa [Memory.next] using hnow
    rw [h.2]
    exact hspeak
  | wrote roomId' record =>
    simp only [Memory.next] at hnow
    split at hnow
    . exact hsilenced.now now hnow
    . exact hsilenced.now now hnow
  | _ => exact hsilenced.now now hnow

theorem step (hop : op.onMessages) (h : Transition g e s l s') (hstep : silencedStep userId room e s l)
    : Silenced sid op d userId roomId room (g.next l) s' := by
  simp only [silencedStep, Bool.and_eq_true, Bool.not_eq_true'] at hstep
  obtain ⟨⟨hreads, hspeak⟩, hfresh⟩ := hstep
  have hstores := stores_eq_none h hsilenced.req hop
  exact {
    req := (Memory.next_req g l).trans hsilenced.req
    session := hsilenced.session_step hop h
    stored := by
      rw [h.lookup_database (by simp [hstores])]
      exact hsilenced.stored
    base := hsilenced.base_step hop h hreads
    actor := hsilenced.actor_step h
    now := hsilenced.now_step h hspeak
    located := hsilenced.located_step h
    authored := authored_step h hfresh hsilenced.authored hsilenced.named
    named := named_step h hsilenced.authored hsilenced.named }

theorem not_maySpeak (hkind : room.kind = .community) : ¬ g.MaySpeak roomId userId := by
  rintro ⟨snapshot, hbase, hspeak⟩
  obtain rfl := hsilenced.base snapshot hbase
  obtain ⟨now, hnow, hcan⟩ := hspeak room rfl hkind
  rw [hsilenced.now now hnow] at hcan
  contradiction

theorem userId_of_isMessageAuthor {message : ChatMessageRecord} {userId' username : String}
    (hmem : message ∈ s.messages roomId) (hactor : g.actor = some (userId', username))
    (hauthor : isMessageAuthor message.userId message.username userId' username)
    : message.userId = userId := by
  rw [isMessageAuthor, if_neg (hsilenced.authored.messages roomId message hmem)] at hauthor
  simp only [Bool.and_eq_true, decide_eq_true_eq] at hauthor
  rw [hauthor.2]
  exact hsilenced.actor userId' username hactor

/--
What a request of a silenced account can do to the messages of the room: delete one of its own or one
that its role gives it power over, and edit one of its own.
-/
theorem change {change : MessageChange} (hkind : room.kind = .community) (hop : op.onMessages)
    (hreads : e.dbFails = false) (hmay : g.MayChange e s roomId change)
    : (∃ messageId deletedBy byModerator message,
        change = .deleted messageId deletedBy byModerator ∧ op = .delete
          ∧ trimmedStr? d "messageId" = some messageId
          ∧ findMessage messageId (s.messages roomId) = some message ∧ message.deleted = false
          ∧ (message.userId = userId ∨ roleCanDelete room userId message.userId))
      ∨ ∃ messageId text profile encrypted editedAt message,
        change = .edited messageId text profile encrypted editedAt ∧ op = .edit
          ∧ trimmedStr? d "messageId" = some messageId
          ∧ findMessage messageId (s.messages roomId) = some message ∧ message.deleted = false
          ∧ message.system = false ∧ message.userId = userId := by
  have hop? : g.req.op? = some op := by rw [hsilenced.req]; rfl
  cases change with
  | stored message =>
    obtain ⟨-, hactor, -, -, hspeak⟩ := hmay
    rw [hsilenced.actor _ _ hactor] at hspeak
    exact absurd hspeak (hsilenced.not_maySpeak hkind)
  | reacted messageId emoji username =>
    obtain ⟨userId', checkedRoom, hreact, hactor, hlocated, hspeak, hhas⟩ := hmay
    obtain rfl : op = .react := by simpa [hop?] using hreact
    rw [hsilenced.actor _ _ hactor] at hspeak
    -- The message is in the checked room and in this one, so they are the same.
    obtain ⟨m, hm, hid⟩ := List.any_eq_true.1 hhas
    obtain ⟨m', hm', hid'⟩ := List.any_eq_true.1 (hsilenced.located _ _ hlocated rfl)
    have hsame : roomId = checkedRoom :=
      hsilenced.authored.unique roomId checkedRoom m hm m' hm' (by simp_all)
    exact absurd (hsame ▸ hspeak) (hsilenced.not_maySpeak hkind)
  | deleted messageId deletedBy byModerator =>
    left
    obtain ⟨sid', d', player, message, hreq, hid, hactor, -, -, hfound, hdeleted, hcan⟩ := hmay
    obtain ⟨rfl, rfl, rfl⟩ : sid = sid' ∧ op = .delete ∧ d = d' := by
      simpa [hsilenced.req] using hreq
    refine ⟨messageId, deletedBy, byModerator, message, rfl, rfl, hid, hfound, hdeleted, ?_⟩
    rw [Env.readRoom, hreads, if_neg (by simp), hsilenced.stored, canDeleteMessage,
      Option.filter_some_pos (by simpa using hkind)] at hcan
    dsimp only at hcan
    split at hcan
    next hauthor =>
      left
      exact hsilenced.userId_of_isMessageAuthor (findMessage_eq_some hfound).1 hactor hauthor
    next =>
      right
      rw [← hsilenced.actor _ _ hactor]
      exact (Prod.mk.inj hcan).1
  | cleared username =>
    rw [Memory.MayChange, hsilenced.req] at hmay
    cases op with
    | leave => contradiction
    | _ => contradiction
  | edited messageId text profile encrypted editedAt =>
    right
    obtain ⟨sid', d', userId', username, message, hreq, hid, hactor, -, hfound, hdeleted, hsystem,
      hauthor⟩ := hmay
    obtain ⟨rfl, rfl, rfl⟩ : sid = sid' ∧ op = .edit ∧ d = d' := by
      simpa [hsilenced.req] using hreq
    exact ⟨messageId, text, profile, encrypted, editedAt, message, rfl, rfl, hid, hfound, hdeleted,
      hsystem, hsilenced.userId_of_isMessageAuthor (findMessage_eq_some hfound).1 hactor hauthor⟩
  | decorated messageId preview =>
    obtain ⟨⟨n, hreq⟩, -⟩ := hmay
    have hcontra := hsilenced.req.symm.trans hreq
    contradiction

theorem messages_step (K : List ChatMessageRecord → Prop) (hop : op.onMessages)
    (h : Transition g e s l s') (hK : K (s.messages roomId))
    (hchange : ∀ change, g.MayChange e s roomId change → K (change.apply (s.messages roomId)))
    : K (s'.messages roomId) := by
  by_cases hchanges : l.changes = some roomId
  . cases l with
    | changed roomId' change =>
      obtain rfl : roomId' = roomId := by simpa [Label.changes] using hchanges
      rw [h.1, AppState.messages_change, if_pos rfl]
      exact hchange change h.2
    | emptied roomId' =>
      have hop' := h.2
      rw [hsilenced.req] at hop'
      obtain rfl : op = .deleteRoom := by simpa [Request.op?] using hop'
      contradiction
    | _ => simp [Label.changes] at hchanges
  . rw [h.messages hchanges]
    exact hK

omit hsilenced

theorem start {player : PlayerSession} (hauthored : Authored s)
    (hplayer : s.players.lookup sid = some player) (huser : player.userId = userId)
    (hroom : s.database.lookup roomId = some room)
    : Silenced sid op d userId roomId room (server.start (.message sid op d)) s where
  req := rfl
  session player' hplayer' := by
    obtain rfl := Option.some.inj (hplayer.symm.trans hplayer')
    exact huser
  stored := hroom
  base snapshot hbase := by simp [server] at hbase
  actor userId' username hactor := by simp [server] at hactor
  now now hnow := by simp [server] at hnow
  located messageId roomId' hlocated := by simp [server] at hlocated
  authored := hauthored
  named := ⟨by simp [server], by simp [server]⟩

theorem messages_of_complete (K : List ChatMessageRecord → Prop) {a : Bool} (hop : op.onMessages)
    (hstart : Silenced sid op d userId roomId room (server.start (.message sid op d)) s)
    (hchange : ∀ g e s change, Silenced sid op d userId roomId room g s → K (s.messages roomId) →
      e.dbFails = false → g.MayChange e s roomId change → K (change.apply (s.messages roomId)))
    (run : Prog.Complete Eq (fun e s l => silencedStep userId room e s l) (op.handler sid d) s a s')
    (hK : K (s.messages roomId)) : K (s'.messages roomId) := by
  have henv (g : Memory) (s s' : AppState) (heq : s = s')
      (h : Silenced sid op d userId roomId room g s ∧ K (s.messages roomId))
      : Silenced sid op d userId roomId room g s' ∧ K (s'.messages roomId) := heq ▸ h
  have hstep (g : Memory) (e : Env) (s : AppState) (l : Label) (s' : AppState)
      (hstep : silencedStep userId room e s l) (h : Transition g e s l s')
      (hinv : Silenced sid op d userId roomId room g s ∧ K (s.messages roomId))
      : Silenced sid op d userId roomId room (g.next l) s' ∧ K (s'.messages roomId) := by
    obtain ⟨hsilenced, hK⟩ := hinv
    have hreads : e.dbFails = false := by simp_all [silencedStep]
    refine ⟨hsilenced.step hop h hstep, hsilenced.messages_step K hop h hK fun change hmay => ?_⟩
    exact hchange g e s change hsilenced hK hreads hmay
  obtain ⟨g, -, -, hend⟩ := run.of_spec
    (fun g s => Silenced sid op d userId roomId room g s ∧ K (s.messages roomId)) henv hstep
    (Sound.handler op sid d) ⟨hstart, hK⟩
  exact hend

end Silenced

end Lqxp
