import Lqxp.Websocket.Protocol.Lemmas.Server

/-!
This module contains what the steps of the handlers do to the buffered messages.
-/

namespace Lqxp

theorem findMessage_eq_some {messageId : String} {messages : List ChatMessageRecord}
    {message : ChatMessageRecord} (h : findMessage messageId messages = some message)
    : message ∈ messages ∧ message.messageId = messageId := by
  refine ⟨List.mem_of_find?_eq_some h, ?_⟩
  simpa using List.find?_some h

theorem mem_modifyMessage {messageId : String} {f : ChatMessageRecord → ChatMessageRecord}
    {messages : List ChatMessageRecord} {message : ChatMessageRecord}
    (h : message ∈ modifyMessage messageId f messages)
    : message ∈ messages
        ∨ ∃ found, findMessage messageId messages = some found ∧ message = f found := by
  induction messages with
  | nil => exact .inl h
  | cons first rest ih =>
    by_cases hid : first.messageId = messageId
    . rw [modifyMessage, if_pos hid] at h
      rcases List.mem_cons.1 h with rfl | hrest
      . right
        exact ⟨first, by simp [findMessage, hid], rfl⟩
      . left
        exact List.mem_cons_of_mem _ hrest
    . rw [modifyMessage, if_neg hid] at h
      rcases List.mem_cons.1 h with rfl | hrest
      . left
        exact List.mem_cons_self
      . rcases ih hrest with hmem | ⟨found, hfound, rfl⟩
        . left
          exact List.mem_cons_of_mem _ hmem
        . right
          refine ⟨found, ?_, rfl⟩
          rw [findMessage, List.find?_cons_of_neg (by simpa using hid)]
          exact hfound

theorem hasMessage_modifyMessage {messageId messageId' : String}
    {f : ChatMessageRecord → ChatMessageRecord} (hf : ∀ m, (f m).messageId = m.messageId)
    (messages : List ChatMessageRecord)
    : hasMessage messageId' (modifyMessage messageId f messages) = hasMessage messageId' messages := by
  induction messages with
  | nil => rfl
  | cons first rest ih =>
    by_cases hid : first.messageId = messageId
    . rw [modifyMessage, if_pos hid]
      simp [hasMessage, hf]
    . rw [modifyMessage, if_neg hid]
      simp only [hasMessage, List.any_cons] at ih ⊢
      rw [ih]

theorem filter_modifyMessage {messageId : String} {f : ChatMessageRecord → ChatMessageRecord}
    {test : ChatMessageRecord → Bool} {messages : List ChatMessageRecord}
    {found : ChatMessageRecord} (hfound : findMessage messageId messages = some found)
    (htest : test found = false) (htest' : test (f found) = false)
    : (modifyMessage messageId f messages).filter test = messages.filter test := by
  induction messages with
  | nil => rfl
  | cons first rest ih =>
    by_cases hid : first.messageId = messageId
    . obtain rfl : first = found := by simpa [findMessage, hid] using hfound
      rw [modifyMessage, if_pos hid, List.filter_cons_of_neg (by simp [htest']),
        List.filter_cons_of_neg (by simp [htest])]
    . rw [findMessage, List.find?_cons_of_neg (by simpa using hid)] at hfound
      rw [modifyMessage, if_neg hid, List.filter_cons, List.filter_cons, ih hfound]

theorem mem_pushMessage {message pushed : ChatMessageRecord} {messages : List ChatMessageRecord}
    (h : message ∈ pushMessage pushed messages) : message ∈ messages ∨ message = pushed := by
  have hmem := List.mem_of_mem_drop h
  simpa using hmem

theorem toggleReactionInMessage_id (emoji username : String) (message : ChatMessageRecord)
    : (toggleReactionInMessage emoji username message).messageId = message.messageId
        ∧ (toggleReactionInMessage emoji username message).userId = message.userId
        ∧ (toggleReactionInMessage emoji username message).deleted = message.deleted := by
  unfold toggleReactionInMessage
  dsimp only
  split
  . split
    . exact ⟨rfl, rfl, rfl⟩
    . exact ⟨rfl, rfl, rfl⟩
  . exact ⟨rfl, rfl, rfl⟩

theorem MessageChange.origin {change : MessageChange} {messages : List ChatMessageRecord}
    {message : ChatMessageRecord} (h : message ∈ change.apply messages)
    : (∃ old ∈ messages, old.messageId = message.messageId ∧ old.userId = message.userId)
        ∨ change = .stored message := by
  have hmodify {messageId : String} {f : ChatMessageRecord → ChatMessageRecord}
      (hf : ∀ m, (f m).messageId = m.messageId ∧ (f m).userId = m.userId)
      (hmem : message ∈ modifyMessage messageId f messages)
      : ∃ old ∈ messages, old.messageId = message.messageId ∧ old.userId = message.userId := by
    rcases mem_modifyMessage hmem with hold | ⟨found, hfound, rfl⟩
    . exact ⟨message, hold, rfl, rfl⟩
    . exact ⟨found, (findMessage_eq_some hfound).1, (hf found).1.symm, (hf found).2.symm⟩
  cases change with
  | stored stored =>
    rw [apply] at h
    rcases mem_pushMessage h with hold | rfl
    . exact .inl ⟨message, hold, rfl, rfl⟩
    . exact .inr rfl
  | reacted messageId emoji username =>
    left
    apply hmodify _ h
    intro m
    obtain ⟨hid, huser, -⟩ := toggleReactionInMessage_id emoji username m
    exact ⟨hid, huser⟩
  | cleared username =>
    obtain ⟨old, hold, rfl⟩ := List.mem_map.1 h
    refine .inl ⟨old, hold, ?_⟩
    split
    . exact ⟨rfl, rfl⟩
    . exact ⟨rfl, rfl⟩
  | deleted | edited | decorated =>
    left
    apply hmodify _ h
    intro m
    exact ⟨rfl, rfl⟩

@[simp]
theorem AppState.messages_change (s : AppState) (roomId roomId' : String) (change : MessageChange)
    : (s.change roomId change).messages roomId'
        = if roomId' = roomId then change.apply (s.messages roomId) else s.messages roomId' := by
  rw [messages, AppState.change, AssocMap.lookup_insert]
  split
  . rfl
  . rfl

def Label.changes : Label → Option String
  | .changed roomId _ | .emptied roomId => some roomId
  | _ => none

variable {g : Memory} {e : Env} {s s' : AppState} {l : Label} {roomId : String}

theorem Transition.messages (h : Transition g e s l s') (hchanges : l.changes ≠ some roomId)
    : s'.messages roomId = s.messages roomId := by
  cases l with
  | quiet | broadcast | file => rw [AppState.messages, h.roomMessages, AppState.messages]
  | actor => rw [AppState.messages, h.1.roomMessages, AppState.messages]
  | clock | reply | token | account | target | located | read => rw [h.1]
  | connected | joined | left | removed | wrote | created | erased =>
    rw [h.1]
    rfl
  | disconnected =>
    rw [h]
    rfl
  | bound sid userId =>
    obtain ⟨-, -, f, -, rfl⟩ := h
    rfl
  | changed roomId' change =>
    rw [h.1, AppState.messages_change, if_neg]
    exact fun heq => hchanges (congrArg some heq.symm)
  | emptied roomId' =>
    have hne : roomId ≠ roomId' := fun heq => hchanges (congrArg some heq.symm)
    rw [h.1, AppState.messages, AList.lookup_erase_ne hne, AppState.messages]

theorem Transition.messages_emptied (h : Transition g e s (.emptied roomId) s')
    : s'.messages roomId = [] := by
  rw [h.1, AppState.messages, AList.lookup_erase]
  rfl

theorem Transition.forall_messages {K : ChatMessageRecord → Prop} (h : Transition g e s l s')
    (hK : ∀ roomId, ∀ message ∈ s.messages roomId, K message)
    (hchange : ∀ roomId change, l = .changed roomId change →
      ∀ message ∈ change.apply (s.messages roomId), K message)
    (roomId : String) : ∀ message ∈ s'.messages roomId, K message := by
  by_cases hchanges : l.changes = some roomId
  . cases l with
    | changed roomId' change =>
      obtain rfl : roomId' = roomId := by simpa [Label.changes] using hchanges
      rw [h.1, AppState.messages_change, if_pos rfl]
      exact hchange roomId' change rfl
    | emptied roomId' =>
      obtain rfl : roomId' = roomId := by simpa [Label.changes] using hchanges
      simp [h.messages_emptied]
    | _ => simp [Label.changes] at hchanges
  . rw [h.messages hchanges]
    exact hK roomId

end Lqxp
