import Lqxp.Accounts.Lemmas.Rows
import Lqxp.Websocket.Protocol.Lemmas.Buffers

/-!
This module contains who may edit or delete a message that carries an account id: its own account, an
admin of the server or a role of the room, but whoever leaves under the name on it clears it as well.
-/

namespace Lqxp

/--
What only an edit changes: everything but the reactions and the preview.
-/
def ChatMessageRecord.body (message : ChatMessageRecord) : ChatMessageRecord :=
  { message with reactions := [], preview := none }

/--
A message with the given id and author.
-/
def ChatMessageRecord.Is (message : ChatMessageRecord) (messageId userId : String) : Prop :=
  message.messageId = messageId ∧ message.userId = userId

/--
A message of an account is deleted by a step.
-/
def DeletesMessage (s s' : AppState) (roomId messageId userId : String) : Prop :=
  (∀ message ∈ s.messages roomId, message.Is messageId userId → message.deleted = false)
    ∧ ∃ message ∈ s'.messages roomId, message.Is messageId userId ∧ message.deleted

/--
A message of an account is there with another content after a step, and the step has not stored it.
-/
def EditsMessage (s : AppState) (l : AccountLabel) (s' : AppState) (roomId messageId userId : String)
    : Prop :=
  ∃ message' ∈ s'.messages roomId,
    message'.Is messageId userId ∧ message'.deleted = false
      ∧ (∀ sid sender, l ≠ .handled sid sender (.changed roomId (.stored message')))
      ∧ ∀ message ∈ s.messages roomId, message.Is messageId userId → message.body ≠ message'.body

/--
Whether a session may delete the messages of another account in a room: in a community room by its role
there, elsewhere as an admin of the server.
-/
def mayModerate (s : AppState) (roomId authorId : String) (player : PlayerSession) : Bool :=
  match (s.database.lookup roomId).filter (·.kind = .community) with
  | some room => roleCanDelete room player.userId authorId
  | none => player.isAdmin

namespace AccountMemory

/--
The run acts for a session of an account.
-/
def ActsFor (g : AccountMemory) (userId : String) : Bool := g.sender.any (·.userId = userId)

def edits (g : AccountMemory) : Bool :=
  match g.inner.req with
  | .message _ .edit _ => true
  | _ => false

def deletes (g : AccountMemory) : Bool :=
  match g.inner.req with
  | .message _ .delete _ => true
  | _ => false

/--
What a run must be to edit messages of an account, and what it must be to delete them.
-/
structure Respects (g : AccountMemory) (s : AppState) (l : AccountLabel) (s' : AppState) : Prop where
  edited (roomId messageId userId : String)
    : userId ≠ "" → EditsMessage s l s' roomId messageId userId → g.edits ∧ g.ActsFor userId
  deleted (roomId messageId userId : String)
    : userId ≠ "" → DeletesMessage s s' roomId messageId userId →
        (g.deletes ∨ g.inner.req.clears) ∧ g.ActsFor userId
          ∨ g.deletes ∧ ∃ player, g.sender = some player ∧ mayModerate s roomId userId player

end AccountMemory

/--
In all runs whose steps are as `adm` says, messages are edited and deleted only by those who may.
-/
def AuthorsRespected (x : Externals)
    (adm : AccountMemory → AccountEnv → AccountState → AccountLabel → AccountState → Prop) : Prop :=
  ∀ (p q r : AccountPool) (tr : List AccountEvent) i g e l,
    p.Started → Prog.Run (accounts x) adm p tr q → Prog.Step (accounts x) adm q (.act i g e l) r →
      g.Respects q.state.app l r.state.app

/--
Who leaves clears no messages of other accounts that carry the same name, and a deletion by others than the
author knows the room.
-/
def respectsOthers (g : AccountMemory) (e : AccountEnv) (s : AccountState) (l : AccountLabel)
    (_ : AccountState) : Bool :=
  match l with
  | .handled _ _ (.changed roomId (.cleared username)) =>
    (s.app.messages roomId).all fun message =>
      message.deleted || message.username ≠ username || message.userId = ""
        || g.ActsFor message.userId
  | .handled _ _ (.changed roomId (.deleted messageId _ _)) =>
    (findMessage messageId (s.app.messages roomId)).all fun message =>
      !e.dbFails || g.ActsFor message.userId
        || (s.app.database.lookup roomId).all fun room =>
          room.kind ≠ .community || g.sender.any fun player =>
            roleCanDelete room player.userId message.userId
  | _ => true

variable {x : Externals} {g : AccountMemory} {e : AccountEnv} {s s' : AccountState} {l : AccountLabel}
variable {roomId messageId userId : String}

theorem AccountTransition.mem_messages (h : AccountTransition g e s l s') {message : ChatMessageRecord}
    (hmem : message ∈ s'.app.messages roomId)
    : message ∈ s.app.messages roomId
        ∨ ∃ sid sender change, l = .handled sid sender (.changed roomId change)
          ∧ message ∈ change.apply (s.app.messages roomId) := by
  cases l with
  | handled sid sender label =>
    have htransition := h.1
    by_cases hchanges : label.changes = some roomId
    . cases label with
      | changed roomId' change =>
        obtain rfl : roomId' = roomId := by simpa [Label.changes] using hchanges
        rw [htransition.1, AppState.messages_change, if_pos rfl] at hmem
        exact .inr ⟨sid, sender, change, rfl, hmem⟩
      | emptied roomId' =>
        obtain rfl : roomId' = roomId := by simpa [Label.changes] using hchanges
        simp [htransition.messages_emptied] at hmem
      | _ => simp [Label.changes] at hchanges
    . rw [htransition.messages hchanges] at hmem
      exact .inl hmem
  | found | listed =>
    rw [h.1] at hmem
    exact .inl hmem
  | _ =>
    obtain ⟨rfl, -⟩ := h
    exact .inl hmem

theorem actsFor_or_mayModerate {message : ChatMessageRecord} {player : PlayerSession} {byModerator : Bool}
    (hcan : canDeleteMessage (e.readRoom s.app roomId) message player = (true, byModerator))
    (hauthor : message.userId ≠ "")
    (hread : !e.dbFails || player.userId = message.userId
      || (s.app.database.lookup roomId).all fun room =>
        room.kind ≠ .community || roleCanDelete room player.userId message.userId)
    : player.userId = message.userId ∨ mayModerate s.app roomId message.userId player := by
  by_cases hsame : player.userId = message.userId
  . exact .inl hsame
  right
  have hother : isMessageAuthor message.userId message.username player.userId player.username = false := by
    rw [isMessageAuthor, if_neg hauthor]
    simp [Ne.symm hsame]
  rw [canDeleteMessage, hother, Env.readRoom] at hcan
  rw [mayModerate]
  by_cases hfails : e.dbFails
  . rw [if_pos hfails] at hcan
    have hadmin : player.isAdmin := by simpa using (Prod.mk.inj hcan).1
    cases hroom : s.app.database.lookup roomId with
    | none => exact hadmin
    | some room =>
      by_cases hkind : room.kind = .community
      . simpa [Option.filter_some, hkind, hfails, hsame, hroom] using hread
      . simpa [Option.filter_some, hkind] using hadmin
  . rw [if_neg hfails] at hcan
    cases hroom : (s.app.database.lookup roomId).filter (·.kind = .community) with
    | none => simpa [hroom] using (Prod.mk.inj hcan).1
    | some room => simpa [hroom] using (Prod.mk.inj hcan).1

theorem deleted_of_step (h : AccountTransition g e s l s') (hothers : respectsOthers g e s l s')
    (huser : userId ≠ "") (hdeletes : DeletesMessage s.app s'.app roomId messageId userId)
    : (g.deletes ∨ g.inner.req.clears) ∧ g.ActsFor userId
        ∨ g.deletes ∧ ∃ player, g.sender = some player ∧ mayModerate s.app roomId userId player := by
  obtain ⟨hlive, message', hmem, ⟨rfl, rfl⟩, hdeleted⟩ := hdeletes
  -- a message with the same id and author is not deleted before
  have hfresh {message : ChatMessageRecord} (hold : message ∈ s.app.messages roomId)
      (hid : message.messageId = message'.messageId) (hauthor : message.userId = message'.userId)
      : message.deleted = false := hlive message hold ⟨hid, hauthor⟩
  have hnew : message' ∉ s.app.messages roomId := fun hold =>
    absurd hdeleted (by rw [hfresh hold rfl rfl]; decide)
  obtain ⟨sid, sender, change, rfl, hchanged⟩ := (h.mem_messages hmem).resolve_left hnew
  obtain ⟨⟨-, hmay⟩, -, -, -, hvets⟩ := h
  cases change with
  | stored stored =>
    obtain ⟨-, -, -, hnot, -⟩ := hmay
    rw [MessageChange.apply] at hchanged
    obtain rfl := (mem_pushMessage hchanged).resolve_left hnew
    rw [hnot] at hdeleted
    contradiction
  | reacted reactedId emoji username =>
    obtain ⟨found, hfound, rfl⟩ := (mem_modifyMessage hchanged).resolve_left hnew
    obtain ⟨hid, hauthor, hsame⟩ := toggleReactionInMessage_id emoji username found
    rw [hsame, hfresh (findMessage_eq_some hfound).1 hid.symm hauthor.symm] at hdeleted
    contradiction
  | deleted deletedId deletedBy byModerator =>
    obtain ⟨found, hfound, rfl⟩ := (mem_modifyMessage hchanged).resolve_left hnew
    obtain ⟨session, d, -, -, hreq, -⟩ := hmay
    have hdeletes : g.deletes := by simp [AccountMemory.deletes, hreq]
    obtain ⟨player, message, hsender, hmessage, hcan⟩ := hvets
    obtain rfl : message = found := Option.some.inj (hmessage.symm.trans hfound)
    have hread : !e.dbFails || player.userId = message.userId
        || (s.app.database.lookup roomId).all fun room =>
          room.kind ≠ .community || roleCanDelete room player.userId message.userId := by
      simpa [respectsOthers, hfound, AccountMemory.ActsFor, hsender] using hothers
    rcases actsFor_or_mayModerate hcan huser hread with hself | hmoderates
    . refine .inl ⟨.inl hdeletes, ?_⟩
      rw [AccountMemory.ActsFor, hsender]
      exact decide_eq_true hself
    . exact .inr ⟨hdeletes, player, hsender, hmoderates⟩
  | cleared username =>
    obtain ⟨old, hold, heq⟩ := List.mem_map.1 hchanged
    by_cases hkept : old.deleted || old.username ≠ username
    . rw [if_pos hkept] at heq
      exact absurd (heq ▸ hold) hnew
    . rw [if_neg hkept] at heq
      subst heq
      refine .inl ⟨.inr hmay, ?_⟩
      have hhit := List.all_eq_true.1 hothers old hold
      have hauthor : old.userId ≠ "" := huser
      rw [Bool.not_eq_true, Bool.or_eq_false_iff] at hkept
      rw [hkept.1, hkept.2, decide_eq_false hauthor] at hhit
      exact hhit
  | edited editedId text profile encrypted editedAt =>
    obtain ⟨found, hfound, rfl⟩ := (mem_modifyMessage hchanged).resolve_left hnew
    have hnot : found.deleted = false := hfresh (findMessage_eq_some hfound).1 rfl rfl
    exact absurd (hnot.symm.trans hdeleted) Bool.false_ne_true
  | decorated decoratedId preview =>
    obtain ⟨found, hfound, rfl⟩ := (mem_modifyMessage hchanged).resolve_left hnew
    have hnot : found.deleted = false := hfresh (findMessage_eq_some hfound).1 rfl rfl
    exact absurd (hnot.symm.trans hdeleted) Bool.false_ne_true

theorem toggleReactionInMessage_body (emoji username : String) (message : ChatMessageRecord)
    : (toggleReactionInMessage emoji username message).body = message.body := by
  unfold toggleReactionInMessage
  dsimp only
  split
  . split
    . rfl
    . rfl
  . rfl

theorem edited_of_step (h : AccountTransition g e s l s') (huser : userId ≠ "")
    (hedits : EditsMessage s.app l s'.app roomId messageId userId) : g.edits ∧ g.ActsFor userId := by
  obtain ⟨message', hmem, ⟨rfl, rfl⟩, hlive, hstored, hbody⟩ := hedits
  have hother (message : ChatMessageRecord) (hold : message ∈ s.app.messages roomId)
      (hid : message.messageId = message'.messageId) (hauthor : message.userId = message'.userId)
      : message.body ≠ message'.body := hbody message hold ⟨hid, hauthor⟩
  have hnew : message' ∉ s.app.messages roomId := fun hold => hother message' hold rfl rfl rfl
  obtain ⟨sid, sender, change, rfl, hchanged⟩ := (h.mem_messages hmem).resolve_left hnew
  obtain ⟨⟨-, hmay⟩, -, -, -, hvets⟩ := h
  cases change with
  | stored stored =>
    rw [MessageChange.apply] at hchanged
    obtain rfl := (mem_pushMessage hchanged).resolve_left hnew
    exact absurd rfl (hstored sid sender)
  | reacted reactedId emoji username =>
    obtain ⟨found, hfound, rfl⟩ := (mem_modifyMessage hchanged).resolve_left hnew
    obtain ⟨hid, hauthor, -⟩ := toggleReactionInMessage_id emoji username found
    have hsame := toggleReactionInMessage_body emoji username found
    exact absurd hsame.symm (hother found (findMessage_eq_some hfound).1 hid.symm hauthor.symm)
  | deleted deletedId deletedBy byModerator =>
    obtain ⟨found, hfound, rfl⟩ := (mem_modifyMessage hchanged).resolve_left hnew
    contradiction
  | cleared username =>
    obtain ⟨old, hold, heq⟩ := List.mem_map.1 hchanged
    split at heq
    . exact absurd (heq ▸ hold) hnew
    . subst heq
      contradiction
  | edited editedId text profile encrypted editedAt =>
    obtain ⟨found, hfound, rfl⟩ := (mem_modifyMessage hchanged).resolve_left hnew
    obtain ⟨session, d, -, -, -, hreq, -⟩ := hmay
    obtain ⟨player, message, hsender, hmessage, hauthor⟩ := hvets
    obtain rfl : message = found := Option.some.inj (hmessage.symm.trans hfound)
    have hcarries : message.userId ≠ "" := huser
    rw [isMessageAuthor, if_neg hcarries] at hauthor
    have hself : message.userId = player.userId := by simpa using (Bool.and_eq_true_iff.1 hauthor).2
    exact ⟨by simp [AccountMemory.edits, hreq], by simp [AccountMemory.ActsFor, hsender, hself]⟩
  | decorated decoratedId preview =>
    obtain ⟨found, hfound, rfl⟩ := (mem_modifyMessage hchanged).resolve_left hnew
    exact absurd rfl (hother found (findMessage_eq_some hfound).1 rfl rfl)

/--
As long as who leaves clears no messages of others that carry the same name, and deletions know the room,
authorship follows the account.
-/
theorem authorsRespected (x : Externals)
    : AuthorsRespected x fun g e s l s' => respectsOthers g e s l s' := by
  intro p q r tr i g e l hp hrun hstep
  obtain ⟨-, hready⟩ := AccountPool.Ready.run hrun (by simp [AccountPool.Ready, hp.threads])
  obtain ⟨htransition, -⟩ := hready.act hstep
  refine ⟨fun roomId messageId userId => edited_of_step htransition, fun roomId messageId userId => ?_⟩
  exact deleted_of_step htransition hstep.of_act.1

section Renaming

def asUser (id username : String) : AuthenticatedUser :=
  AccountDatabase.authenticatedUser {} { id, username }

def twoAccounts : AccountPool :=
  idleAccounts
    [({ id := "u", username := "uwe" }, { passwordHash := "secret", recoveryHash := "words" }),
      ({ id := "v", username := "vera" }, { passwordHash := "secret", recoveryHash := "words" })]
    [("t", { userId := "u", expiresAt := 100 }), ("w", { userId := "v", expiresAt := 100 })]

/--
A session connects as thread number `i`, identifies with a token, to clear its messages when it leaves, and
joins a room.
-/
def comeIn (sid token : String) (i : Nat) : List (Prog.Cmd AccountRequest AccountEnv) :=
  Prog.Cmd.serve (.websocket (.connect sid)) i 1 .calm
    ++ Prog.Cmd.serve (.websocket (.message sid .identify
        (.obj [("token", .str token), ("deleteMessagesOnLeave", .bool true)]))) (i + 1) 5 .calm
    ++ Prog.Cmd.serve (.websocket (.message sid .join (.obj [("gameId", .str "classroom")])))
        (i + 2) 16 .calm

def sendHello (sid : String) (i : Nat) : List (Prog.Cmd AccountRequest AccountEnv) :=
  Prog.Cmd.serve (.websocket (.message sid .send
      (.obj [("gameId", .str "classroom"), ("text", .str "hello")])))
    i 9 { AccountEnv.calm with randomId := "m" }

/--
A session leaves, up to the step that clears its messages.
-/
def startLeaving (sid : String) (i : Nat) : List (Prog.Cmd AccountRequest AccountEnv) :=
  Prog.Cmd.serve (.websocket (.message sid .leave (.obj [("gameId", .str "classroom")]))) i 10 .calm

/--
An account writes a message and is renamed, another takes the name that is free now, joins and leaves.
-/
def takeOverName : List (Prog.Cmd AccountRequest AccountEnv) :=
  comeIn "a" "t" 0 ++ sendHello "a" 3
    ++ Prog.Cmd.serve (.changeUsername (asUser "u" "uwe") "ulf") 4 8 .calm
    ++ Prog.Cmd.serve (.changeUsername (asUser "v" "vera") "uwe") 5 6 .calm
    ++ comeIn "b" "w" 6 ++ startLeaving "b" 9

/--
A test for the deletion of the message by a leave of the given account.
-/
def clearsHello (userId : String) (q : AccountPool) (ev : AccountEvent) (r : AccountPool) : Bool :=
  (q.state.app.messages "classroom").all (!·.deleted)
    && ((r.state.app.messages "classroom").any fun message =>
      message.messageId = "m" && message.userId = "u" && message.deleted)
    && match ev with
      | .act _ g _ _ => !g.deletes && g.ActsFor userId
      | .start .. => false

theorem deletesMessage_of_clearsHello {q r : AccountPool} {i : Nat} {userId : String}
    (h : clearsHello userId q (.act i g e l) r)
    : DeletesMessage q.state.app r.state.app "classroom" "m" "u" ∧ g.deletes = false
        ∧ g.ActsFor userId := by
  simp only [clearsHello, Bool.and_eq_true, List.all_eq_true, List.any_eq_true, decide_eq_true_eq,
    Bool.not_eq_true'] at h
  obtain ⟨⟨hlive, message, hmem, his, hdeleted⟩, hdeletes, hacts⟩ := h
  exact ⟨⟨fun old hold _ => hlive old hold, message, hmem, his, hdeleted⟩, hdeletes, hacts⟩

theorem authorsRespected_leaving
    : ∃ tr q g l r,
        Prog.Run (accounts plainExternals) (fun g e s l s' => respectsOthers g e s l s') twoAccounts tr q
          ∧ Prog.Step (accounts plainExternals) (fun g e s l s' => respectsOthers g e s l s') q
            (.act 4 g .calm l) r
          ∧ DeletesMessage q.state.app r.state.app "classroom" "m" "u"
          ∧ g.Respects q.state.app l r.state.app := by
  obtain ⟨tr, q, g, l, r, hrun, hstep, htest⟩ := Prog.Run.exists_step_of_exec (accounts plainExternals)
    respectsOthers (comeIn "a" "t" 0 ++ sendHello "a" 3 ++ startLeaving "a" 4) twoAccounts 4 .calm
    (clearsHello "u") (by decide +kernel)
  obtain ⟨hdeletes, -⟩ := deletesMessage_of_clearsHello htest
  exact ⟨tr, q, g, l, r, hrun, hstep, hdeletes,
    authorsRespected plainExternals _ q r tr 4 g .calm l (started_idleAccounts _ _) hrun hstep⟩

/--
The message is deleted by the account that has taken over the name.
-/
theorem not_authorsRespected : ¬ AuthorsRespected plainExternals fun _ _ _ _ _ => True := by
  intro h
  obtain ⟨tr, q, g, l, r, hrun, hstep, htest⟩ := Prog.Run.exists_step_of_exec (accounts plainExternals)
    (fun _ _ _ _ _ => true) takeOverName twoAccounts 9 .calm (clearsHello "v") (by decide +kernel)
  obtain ⟨hdeletes, hnot, hacts⟩ := deletesMessage_of_clearsHello htest
  have hrespects := h _ q r tr 9 g .calm l (started_idleAccounts _ _)
    (hrun.mono fun _ _ _ _ _ _ => trivial) (hstep.mono fun _ _ _ _ _ _ => trivial)
  rcases hrespects.deleted "classroom" "m" "u" (by decide) hdeletes with ⟨-, hauthor⟩ | ⟨hother, -⟩
  . obtain ⟨player, hsender, hplayer⟩ := (Option.any_eq_true _ _).1 hacts
    rw [AccountMemory.ActsFor, hsender, Option.any_some, of_decide_eq_true hplayer] at hauthor
    contradiction
  . rw [hnot] at hother
    contradiction

end Renaming

end Lqxp
