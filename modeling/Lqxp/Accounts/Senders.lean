import Lqxp.Accounts.System
import Lqxp.Websocket.Protocol.Lemmas.Idle
import Lqxp.Websocket.Protocol.Lemmas.Server

/-!
This module contains the proof that behind every edit, deletion or clearing of messages stands a session
that the handler has looked up or taken away, with the account and the name that the handler checks.
-/

namespace Lqxp

/--
The session that stands behind a change of messages.
-/
def AccountMemory.Vets (g : AccountMemory) (e : Env) (s : AppState) : Label → Prop
  | .changed roomId (.deleted messageId _ byModerator) =>
    ∃ player message, g.sender = some player ∧ findMessage messageId (s.messages roomId) = some message
      ∧ canDeleteMessage (e.readRoom s roomId) message player = (true, byModerator)
  | .changed roomId (.edited messageId ..) =>
    ∃ player message, g.sender = some player ∧ findMessage messageId (s.messages roomId) = some message
      ∧ isMessageAuthor message.userId message.username player.userId player.username
  | .changed _ (.cleared username) =>
    (∃ roomId, g.inner.req = .clearMessages roomId username)
      ∨ ∃ player, g.sender = some player ∧ player.username = username
  | _ => True

def VetsStep (g : AccountMemory) (e : AccountEnv) (s : AccountState) (l : AccountLabel)
    (_ : AccountState) : Prop :=
  match l with
  | .handled _ _ label => g.Vets e.toEnv s.app label
  | _ => True

/--
Run for a session with the memory `g`, a piece of a handler only makes changes of messages that its session
stands behind.
-/
abbrev Vetted (post : α → AccountMemory → Prop) (sid : Option String) (p : Proto α) (g : AccountMemory)
    : Prop :=
  Prog.Spec AccountMemory.next VetsStep post (handled sid p) g

theorem AccountMemory.vets_of_idle (g : AccountMemory) (e : Env) (s : AppState) {label : Label}
    (hidle : label.idle) : g.Vets e s label := by
  cases label with
  | changed => simp [Label.idle] at hidle
  | _ => trivial

theorem AccountMemory.sender_next_of_idle (g : AccountMemory) (sid : Option String)
    (sender : Option PlayerSession) {label : Label} (hidle : label.idle)
    : (g.next (.handled sid sender label)).sender = g.sender := by
  cases label with
  | actor | left | disconnected => simp [Label.idle] at hidle
  | _ => rfl

/--
The requests that may edit, delete or clear messages.
-/
def Request.altersMessages : Request → Bool
  | .message _ .delete _ | .message _ .edit _ => true
  | req => req.clears

theorem AccountMemory.vets_of_transition {g : AccountMemory} {e : Env} {s s' : AppState} {label : Label}
    (halters : g.inner.req.altersMessages = false) (h : Transition g.inner e s label s')
    : g.Vets e s label := by
  cases label with
  | changed roomId change =>
    cases change with
    | deleted =>
      obtain ⟨-, sid, d, -, -, hreq, -⟩ := h
      simp [hreq, Request.altersMessages] at halters
    | edited =>
      obtain ⟨-, sid, d, -, -, -, hreq, -⟩ := h
      simp [hreq, Request.altersMessages] at halters
    | cleared =>
      have hclears : g.inner.req.clears := h.2
      unfold Request.altersMessages at halters
      split at halters
      . contradiction
      . contradiction
      . simp [hclears] at halters
    | _ => trivial
  | _ => trivial

namespace Vetted

variable {g : AccountMemory} {sid : Option String}

theorem pure {post : α → AccountMemory → Prop} {a : α} (h : post a g) : Vetted post sid (pure a) g := h

theorem bind {post : β → AccountMemory → Prop} {p : Proto α} {f : α → Proto β}
    (h : Vetted (fun a g' => Vetted post sid (f a) g') sid p g) : Vetted post sid (p >>= f) g := by
  rw [Vetted, handled, Prog.zoom_bind]
  exact Prog.Spec.bind_iff.2 h

theorem atom {post : α → AccountMemory → Prop} {f : Env → AppState → α × Label × AppState}
    (h : ∀ e s, g.Vets e s (f e s).2.1
      ∧ post (f e s).1 (g.next (.handled sid (sid.bind s.players.lookup) (f e s).2.1)))
    : Vetted post sid (.atom f) g :=
  fun e s => h e.toEnv s.app

theorem idle {post : α → AccountMemory → Prop} {p : Proto α} (hp : Idle p)
    (h : ∀ a g', g'.sender = g.sender → g'.inner.req = g.inner.req → post a g')
    : Vetted post sid p g := by
  induction p generalizing g with
  | done a => exact h a g rfl rfl
  | step act rest ih =>
    intro e s
    obtain ⟨hlabel, hrest⟩ := hp e.toEnv s.app
    refine ⟨g.vets_of_idle e.toEnv s.app hlabel, ih _ _ hrest fun a g' hsender hreq => h a g' ?_ ?_⟩
    . exact hsender.trans (g.sender_next_of_idle sid _ hlabel)
    . exact hreq.trans (Memory.next_req _ _)

theorem identifiedPlayer {session : String} {post : Option PlayerSession → AccountMemory → Prop}
    (hnone : ∀ g', g'.inner.req = g.inner.req → post none g')
    (h : ∀ player g', g'.sender = some player → g'.inner.req = g.inner.req → post (some player) g')
    : Vetted post (some session) (identifiedPlayer session) g := by
  refine .bind <| .atom fun e s => ?_
  cases hplayer : s.players.lookup session with
  | none => exact ⟨trivial, .pure (hnone _ rfl)⟩
  | some player =>
    refine ⟨trivial, .pure ?_⟩
    rw [Option.filter_some]
    split
    . exact h player _ (by simp [AccountMemory.next, hplayer]) (Memory.next_req _ _)
    . exact hnone _ (Memory.next_req _ _)

theorem deleteFoundMessage {messageId : String} {roomHint : Option String} {player : PlayerSession}
    {post : Except String DeletedMessage → AccountMemory → Prop} (hsender : g.sender = some player)
    (h : ∀ result g', post result g')
    : Vetted post sid (deleteFoundMessage messageId roomHint player) g := by
  refine .atom fun e s => ?_
  split
  . exact ⟨trivial, h _ _⟩
  next roomId message hfind =>
  obtain ⟨room, hroom⟩ : ∃ room, (findMessage messageId (s.messages room)).map (room, ·)
      = some (roomId, message) := by
    unfold findForDeletion at hfind
    split at hfind
    . contradiction
    next room _ => exact ⟨room, hfind⟩
  obtain ⟨message, hmessage, heq⟩ := Option.map_eq_some_iff.1 hroom
  obtain ⟨rfl, rfl⟩ := Prod.mk.inj heq
  dsimp only
  split
  . exact ⟨trivial, h _ _⟩
  split
  . exact ⟨trivial, h _ _⟩
  next hcan => exact ⟨⟨player, message, hsender, hmessage, hcan⟩, h _ _⟩

theorem deleteMessage (session : String) (d : Json)
    : Vetted (fun _ _ => True) (some session) (deleteMessage session d) g := by
  refine .bind <| .idle (.hitRateLimit _ _ _) fun limited g' _ _ => ?_
  split
  . exact .idle (.respondError _ _ _ _) fun _ _ _ _ => trivial
  split
  . dsimp only
    refine .bind <| .identifiedPlayer (fun g' _ => ?_) fun player g' hsender _ => ?_
    . exact .idle (.respondError _ _ _ _) fun _ _ _ _ => trivial
    refine .bind <| .idle .nowMs fun timestamp g'' hsender' _ => ?_
    refine .bind <| .deleteFoundMessage (hsender'.trans hsender) fun result g''' => ?_
    split
    . exact .idle (.respondError _ _ _ _) fun _ _ _ _ => trivial
    . split
      . refine .bind <| .idle (.broadcastToRoom _ _) fun _ _ _ _ => ?_
        exact .idle (.respondOk _ _ _ _) fun _ _ _ _ => trivial
      . exact .idle (.respondOk _ _ _ _) fun _ _ _ _ => trivial
  . exact .idle (.respondError _ _ _ _) fun _ _ _ _ => trivial

theorem editFoundMessage {messageId roomId text : String} {player : PlayerSession}
    {encrypted : Option EncryptedPayload} {editedAt : Nat}
    {post : Except String ChatMessageRecord → AccountMemory → Prop} (hsender : g.sender = some player)
    (h : ∀ result g', post result g')
    : Vetted post sid (editFoundMessage messageId roomId text player encrypted editedAt) g := by
  refine .atom fun e s => ?_
  dsimp only
  split
  . exact ⟨trivial, h _ _⟩
  next message hmessage =>
    split
    . exact ⟨trivial, h _ _⟩
    split
    . exact ⟨trivial, h _ _⟩
    split
    . exact ⟨trivial, h _ _⟩
    next hauthor => exact ⟨⟨player, message, hsender, hmessage, by simpa using hauthor⟩, h _ _⟩

theorem editMessage (session : String) (d : Json)
    : Vetted (fun _ _ => True) (some session) (editMessage session d) g := by
  refine .bind <| .idle (.hitRateLimit _ _ _) fun limited g' _ _ => ?_
  split
  . exact .idle (.respondError _ _ _ _) fun _ _ _ _ => trivial
  split
  . split
    . exact .idle (.respondError _ _ _ _) fun _ _ _ _ => trivial
    . dsimp only
      split
      . exact .idle (.respondError _ _ _ _) fun _ _ _ _ => trivial
      split
      . exact .idle (.respondError _ _ _ _) fun _ _ _ _ => trivial
      refine .bind <| .identifiedPlayer (fun g' _ => ?_) fun player g' hsender _ => ?_
      . exact .idle (.respondError _ _ _ _) fun _ _ _ _ => trivial
      dsimp only
      split
      . exact .idle (.respondError _ _ _ _) fun _ _ _ _ => trivial
      refine .bind <| .idle .nowMs fun editedAt g'' hsender' _ => ?_
      refine .bind <| .editFoundMessage (hsender'.trans hsender) fun result g''' => ?_
      split
      . exact .idle (.respondError _ _ _ _) fun _ _ _ _ => trivial
      . refine .bind <| .idle (.broadcastToRoom _ _) fun _ _ _ _ => ?_
        refine .bind <| .idle (.respondOk _ _ _ _) fun _ _ _ _ => ?_
        split
        . exact .bind <| .idle (.spawnPreview _) fun _ _ _ _ => .pure trivial
        . exact .pure trivial
  . exact .idle (.respondError _ _ _ _) fun _ _ _ _ => trivial

theorem deleteUserMessagesInRoomAndBroadcast {gameId deletedBy : String}
    {post : List String → AccountMemory → Prop}
    (hclears : (∃ roomId, g.inner.req = .clearMessages roomId deletedBy)
      ∨ ∃ player, g.sender = some player ∧ player.username = deletedBy)
    (h : ∀ ids g', g'.sender = g.sender → post ids g')
    : Vetted post sid (deleteUserMessagesInRoomAndBroadcast gameId deletedBy) g := by
  refine .bind <| .idle .nowMs fun deletedAt g' hsender hreq => .bind <| .atom fun e s => ?_
  split
  . refine ⟨trivial, .idle (.announceCleared _ _ _ _) fun ids g'' hsender' _ => h ids g'' ?_⟩
    exact hsender'.trans hsender
  . refine ⟨?_, .idle (.announceCleared _ _ _ _) fun ids g'' hsender' _ => h ids g'' ?_⟩
    . rw [AccountMemory.Vets, hreq, hsender]
      exact hclears
    . exact hsender'.trans hsender

theorem clearOnLeave {roomId username : String} {shouldClearMessages : Bool}
    {post : List String → AccountMemory → Prop}
    (hsender : ∃ player, g.sender = some player ∧ player.username = username)
    (h : ∀ ids g', g'.sender = g.sender → post ids g')
    : Vetted post sid (clearOnLeave roomId username shouldClearMessages) g := by
  unfold Lqxp.clearOnLeave
  split
  . exact .deleteUserMessagesInRoomAndBroadcast (.inr hsender) h
  . exact .pure (h _ g rfl)

theorem quitRoom {session roomId : String}
    {post : Except String (String × String × Bool) → AccountMemory → Prop}
    (herror : ∀ text g', post (.error text) g')
    (h : ∀ player clientId clears g', g'.sender = some player → post (.ok (player.username, clientId, clears)) g')
    : Vetted post (some session) (quitRoom session roomId) g := by
  refine .atom fun e s => ?_
  split
  . exact ⟨trivial, herror _ _⟩
  next player hplayer =>
    split
    . exact ⟨trivial, h player _ _ _ (by simp [AccountMemory.next, hplayer])⟩
    . exact ⟨trivial, herror _ _⟩

theorem leaveGame (session : String) (d : Json)
    : Vetted (fun _ _ => True) (some session) (leaveGame session d) g := by
  refine .bind <| .idle (.hitRateLimit _ _ _) fun limited g' _ _ => ?_
  split
  . exact .idle (.respondError _ _ _ _) fun _ _ _ _ => trivial
  split
  . split
    . exact .idle (.respondError _ _ _ _) fun _ _ _ _ => trivial
    refine .bind <| .quitRoom (fun text g' => ?_) fun player clientId clears g₁ h₁ => ?_
    . exact .idle (.respondError _ _ _ _) fun _ _ _ _ => trivial
    refine .bind <| .idle (.syncRoomRecord _) fun _ g₂ h₂ _ => ?_
    refine .bind <| .idle (.look _) fun rosters g₃ h₃ _ => ?_
    refine .bind <| .idle (.recordOrRoster _ _) fun room g₄ h₄ _ => ?_
    refine .bind <| .idle (.broadcastToRoom _ _) fun _ g₅ h₅ _ => ?_
    refine .bind <| .clearOnLeave ⟨player, ?_, rfl⟩ fun ids g₆ _ => ?_
    . rw [h₅, h₄, h₃, h₂, h₁]
    . exact .idle (.respondOk _ _ _ _) fun _ _ _ _ => trivial
  . exact .idle (.respondError _ _ _ _) fun _ _ _ _ => trivial

theorem leaveBehindAll {player : PlayerSession} {rooms : List String} (hsender : g.sender = some player)
    : Vetted (fun _ _ => True) sid (leaveBehindAll player rooms) g := by
  induction rooms generalizing g with
  | nil => exact .pure trivial
  | cons gameId rooms ih =>
    refine .bind <| .bind <| .idle (.syncRoomRecord _) fun _ g₁ h₁ _ => ?_
    refine .bind <| .idle (.announceLeft _ _) fun _ g₂ h₂ _ => ?_
    refine .bind <| .clearOnLeave ⟨player, by rw [h₂, h₁, hsender], rfl⟩ fun _ g₃ h₃ => ?_
    exact .idle (.announceHungUp _ _) fun _ g₄ h₄ _ => ih (by rw [h₄, h₃, h₂, h₁, hsender])

section Disconnect

-- Its first step asks about a text, and to look for that step goes through the text's characters.
attribute [local irreducible] broadcastSyncPeerEvent

theorem disconnectPlayer (session : String)
    : Vetted (fun _ _ => True) (some session) (disconnectPlayer session) g := by
  refine .bind <| .atom fun e s => ?_
  cases hplayer : s.players.lookup session with
  | none => exact ⟨trivial, .pure trivial⟩
  | some player =>
    have hsender : (g.next (.handled (some session) ((some session).bind s.players.lookup)
        (.disconnected session))).sender = some player := by
      simp [AccountMemory.next, hplayer]
    refine ⟨trivial, ?_⟩
    dsimp only
    split
    . refine .bind <| .idle (.broadcastSyncPeerEvent _ _ _ _ _) fun _ g' h' _ => ?_
      exact .leaveBehindAll (h'.trans hsender)
    . exact .leaveBehindAll hsender

end Disconnect

theorem of_sound {post : α → Memory → Prop} {p : Proto α} (h : Sound post p g.inner)
    (halters : g.inner.req.altersMessages = false) : Vetted (fun _ _ => True) sid p g := by
  refine Prog.Spec.mono (Prog.Spec.zoom (handledView sid)
    (fun (g' : AccountMemory) inner => inner = g'.inner ∧ inner.req = g.inner.req) ?_ ?_ h ⟨rfl, rfl⟩)
    fun _ _ _ => trivial
  . rintro g' inner s l ⟨rfl, hreq⟩
    exact ⟨rfl, (Memory.next_req _ _).trans hreq⟩
  . rintro g' inner e s l s' ⟨rfl, hreq⟩ hok
    exact AccountMemory.vets_of_transition (hreq ▸ halters) hok

theorem handle (req : Request) (hinner : g.inner = { req })
    : Vetted (fun _ _ => True) req.sid? req.handle g := by
  by_cases halters : req.altersMessages
  . cases req with
    | disconnect session => exact .disconnectPlayer session
    | clearMessages roomId username =>
      refine .bind <| .deleteUserMessagesInRoomAndBroadcast (.inl ⟨roomId, ?_⟩) fun _ _ _ => .pure trivial
      rw [hinner]
    | message session op d =>
      cases op with
      | leave => exact .bind <| Prog.Spec.mono (leaveGame session d) fun _ _ _ => .pure trivial
      | delete => exact .bind <| Prog.Spec.mono (deleteMessage session d) fun _ _ _ => .pure trivial
      | edit => exact .bind <| Prog.Spec.mono (editMessage session d) fun _ _ _ => .pure trivial
      | _ => contradiction
    | _ => contradiction
  . have hsound : Sound (fun _ => Memory.Settled) req.handle g.inner := by
      rw [hinner]
      exact Sound.handle req
    refine of_sound hsound ?_
    rw [hinner]
    exact Bool.eq_false_iff.2 halters

end Vetted

end Lqxp
