import Lqxp.Prog.Rely
import Lqxp.Websocket.Protocol.Lemmas.Buffers
import Lqxp.Websocket.Protocol.Lemmas.Idle

/-!
This module contains the history behind the buffered messages: what has been sent and edited so far, and how the
buffers and the spawned preview tasks go back to it.
-/

namespace Lqxp

/--
What an edit makes of a message.
-/
structure MessageEdit where
  text : String
  encrypted : Option EncryptedPayload
  editedAt : Nat

namespace MessageEdit

def url? (edit : MessageEdit) : Option String := if edit.encrypted.isSome then none else findFirstUrl edit.text

/--
The edit replaces the link of an earlier one in the same millisecond.
-/
def Overtakes (edit earlier : MessageEdit) : Prop :=
  edit.editedAt = earlier.editedAt ∧ earlier.url?.isSome ∧ edit.encrypted.isNone ∧ edit.url? ≠ earlier.url?

instance (edit earlier : MessageEdit) : Decidable (edit.Overtakes earlier) := inferInstanceAs (Decidable (_ ∧ _))

end MessageEdit

namespace Label

/--
The message with the given id that the step stores in the room.
-/
def sentOf? (roomId messageId : String) : Label → Option ChatMessageRecord
  | .changed room (.stored message) => if room = roomId ∧ message.messageId = messageId then some message else none
  | _ => none

/--
What the step makes of the message with the given id in the room, when it is an edit of that.
-/
def editOf? (roomId messageId : String) : Label → Option MessageEdit
  | .changed room (.edited id text _ encrypted editedAt) =>
    if room = roomId ∧ id = messageId then some { text, encrypted, editedAt } else none
  | _ => none

def rewrites : Label → Bool
  | .changed .. => true
  | _ => false

theorem editOf?_of_not_rewrites {l : Label} (h : l.rewrites = false) (roomId messageId : String)
    : l.editOf? roomId messageId = none := by
  cases l with
  | changed => contradiction
  | _ => rfl

end Label

/--
Two steps that do not store messages under the same id.
-/
def IdsApart : Label → Label → Prop
  | .changed room (.stored message), .changed room' (.stored message') =>
    room = room' → message.messageId ≠ message'.messageId
  | _, _ => True

/--
Two steps, of which the second one does not replace the link of a message in the same millisecond in which the first
one has set it.
-/
def EditsApart : Label → Label → Prop
  | .changed room (.edited messageId text _ encrypted editedAt),
      .changed room' (.edited messageId' text' _ encrypted' editedAt') =>
    room = room' → messageId = messageId' →
      ¬ MessageEdit.Overtakes { text := text', encrypted := encrypted', editedAt := editedAt' }
        { text, encrypted, editedAt }
  | _, _ => True

instance (l l' : Label) : Decidable (IdsApart l l') := by
  unfold IdsApart
  split <;> infer_instance

instance (l l' : Label) : Decidable (EditsApart l l') := by
  unfold EditsApart
  split <;> infer_instance

theorem IdsApart.sentOf? {l l' : Label} (h : IdsApart l l') {roomId messageId : String} {message : ChatMessageRecord}
    (hmessage : l.sentOf? roomId messageId = some message) : l'.sentOf? roomId messageId = none := by
  unfold Label.sentOf? at hmessage ⊢
  split at hmessage
  . obtain ⟨⟨rfl, rfl⟩, -⟩ := Option.ite_none_right_eq_some.1 hmessage
    split
    . exact if_neg fun heq => h heq.1.symm heq.2.symm
    . rfl
  . contradiction

theorem EditsApart.editOf? {l l' : Label} (h : EditsApart l l') {roomId messageId : String}
    {earlier edit : MessageEdit} (hearlier : l.editOf? roomId messageId = some earlier)
    (hedit : l'.editOf? roomId messageId = some edit) : ¬ edit.Overtakes earlier := by
  unfold Label.editOf? at hearlier hedit
  split at hearlier
  . obtain ⟨⟨rfl, rfl⟩, ⟨rfl⟩⟩ := Option.ite_none_right_eq_some.1 hearlier
    split at hedit
    . obtain ⟨⟨rfl, rfl⟩, ⟨rfl⟩⟩ := Option.ite_none_right_eq_some.1 hedit
      exact h rfl rfl
    . contradiction
  . contradiction

/--
The second step neither stores a message under the id of the first one nor replaces its link in the same millisecond.
-/
def StepsApart (x y : Env × Label) : Prop := IdsApart x.2 y.2 ∧ EditsApart x.2 y.2

instance (x y : Env × Label) : Decidable (StepsApart x y) := inferInstanceAs (Decidable (_ ∧ _))

section Histories

variable {h h' : List (Env × Label)} {x : Env × Label} {roomId messageId : String}

def sends (roomId messageId : String) (h : List (Env × Label)) : List ChatMessageRecord :=
  h.filterMap fun x => x.2.sentOf? roomId messageId

def edits (roomId messageId : String) (h : List (Env × Label)) : List MessageEdit :=
  h.filterMap fun x => x.2.editOf? roomId messageId

/--
The preview is what a step was told when it asked for the link.
-/
def Fetched (url : String) (preview : LinkPreview) (h : List (Env × Label)) : Prop :=
  ∃ x ∈ h, x.1.fetch url = some preview

theorem sends_append : sends roomId messageId (h ++ [x])
    = sends roomId messageId h ++ (x.2.sentOf? roomId messageId).toList := by
  rw [sends, List.filterMap_append, List.filterMap_cons, List.filterMap_nil]
  cases x.2.sentOf? roomId messageId <;> rfl

theorem edits_append : edits roomId messageId (h ++ [x])
    = edits roomId messageId h ++ (x.2.editOf? roomId messageId).toList := by
  rw [edits, List.filterMap_append, List.filterMap_cons, List.filterMap_nil]
  cases x.2.editOf? roomId messageId <;> rfl

theorem mem_sends_of_beginning {message : ChatMessageRecord} (hbegins : h <+: h')
    (hmem : message ∈ sends roomId messageId h) : message ∈ sends roomId messageId h' :=
  (hbegins.filterMap _).subset hmem

theorem mem_edits_of_beginning {edit : MessageEdit} (hbegins : h <+: h') (hmem : edit ∈ edits roomId messageId h)
    : edit ∈ edits roomId messageId h' :=
  (hbegins.filterMap _).subset hmem

theorem Fetched.of_beginning {url : String} {preview : LinkPreview} (hbegins : h <+: h') (hfetched : Fetched url preview h)
    : Fetched url preview h' := by
  obtain ⟨x, hx, hfetch⟩ := hfetched
  exact ⟨x, hbegins.subset hx, hfetch⟩

theorem eq_of_mem_sends (hapart : h.Pairwise StepsApart) {message message' : ChatMessageRecord}
    (hmem : message ∈ sends roomId messageId h) (hmem' : message' ∈ sends roomId messageId h)
    : message = message' := by
  have hpairwise : (sends roomId messageId h).Pairwise fun _ _ => False := by
    refine List.Pairwise.filterMap _ (fun x y hxy message hmessage message' hmessage' => ?_) hapart
    rw [hxy.1.sentOf? hmessage] at hmessage'
    contradiction
  cases hsends : sends roomId messageId h with
  | nil =>
    rw [hsends] at hmem
    contradiction
  | cons first rest =>
    rw [hsends] at hmem hmem' hpairwise
    have hrest : rest = [] := List.eq_nil_iff_forall_not_mem.2 (List.pairwise_cons.1 hpairwise).1
    rw [hrest, List.mem_singleton] at hmem hmem'
    rw [hmem, hmem']

theorem not_overtaken (hapart : h.Pairwise StepsApart) {edit last : MessageEdit}
    (hmem : edit ∈ edits roomId messageId h) (hlast : (edits roomId messageId h).getLast? = some last)
    : edit = last ∨ ¬ last.Overtakes edit := by
  have hpairwise : (edits roomId messageId h).Pairwise fun earlier edit => ¬ edit.Overtakes earlier :=
    List.Pairwise.filterMap _ (fun x y hxy earlier hearlier edit hedit => hxy.2.editOf? hearlier hedit) hapart
  obtain ⟨init, hinit⟩ := List.getLast?_eq_some_iff.1 hlast
  rw [hinit] at hmem hpairwise
  rcases List.mem_append.1 hmem with hearlier | heq
  . exact .inr ((List.pairwise_append.1 hpairwise).2.2 edit hearlier last (List.mem_singleton_self _))
  . exact .inl (List.mem_singleton.1 heq)

end Histories

/--
What a message in the buffer of a room owes to the steps made so far.
-/
structure Version (h : List (Env × Label)) (roomId : String) (message : ChatMessageRecord) : Prop where
  sent : sends roomId message.messageId h ≠ []
  original : message.editedAt = none → ∃ original ∈ sends roomId message.messageId h,
    original.text = message.text ∧ original.encrypted = message.encrypted
  latest (editedAt : Nat) : message.editedAt = some editedAt →
    (edits roomId message.messageId h).getLast? = some { text := message.text, encrypted := message.encrypted, editedAt }
  preview (preview : LinkPreview) : message.encrypted = none → message.preview = some preview →
    ∃ url, findFirstUrl message.text = some url ∧ Fetched url preview h

/--
The link that a task fetches has been the first one of a message.
-/
def PreviewTask.ComesFrom (task : PreviewTask) (h : List (Env × Label)) : Prop :=
  match task.cause with
  | .sent => ∃ message ∈ sends task.room task.messageId h,
    message.encrypted = none ∧ findFirstUrl message.text = some task.url
  | .edited editedAt => ∃ edit ∈ edits task.room task.messageId h,
    edit.editedAt = editedAt ∧ edit.url? = some task.url
  | .requested _ => False

theorem PreviewTask.ComesFrom.of_beginning {task : PreviewTask} {h h' : List (Env × Label)} (hbegins : h <+: h')
    (htask : task.ComesFrom h) : task.ComesFrom h' := by
  unfold ComesFrom at htask ⊢
  split at htask
  . obtain ⟨message, hmem, hmessage⟩ := htask
    exact ⟨message, mem_sends_of_beginning hbegins hmem, hmessage⟩
  . obtain ⟨edit, hmem, hedit⟩ := htask
    exact ⟨edit, mem_edits_of_beginning hbegins hmem, hedit⟩
  . exact htask

/--
The buffers and the tasks go back to the steps made so far.
-/
structure Traceable (h : List (Env × Label)) (s : AppState) : Prop where
  messages (roomId : String) : ∀ message ∈ s.messages roomId, Version h roomId message
  distinct (roomId : String) : ((s.messages roomId).map (·.messageId)).Nodup
  tasks : ∀ task ∈ s.previewTasks, task.ComesFrom h

section Messages

variable {h : List (Env × Label)} {x : Env × Label} {roomId : String} {message : ChatMessageRecord}

theorem Version.append (hversion : Version h roomId message) (hx : x.2.editOf? roomId message.messageId = none)
    : Version (h ++ [x]) roomId message := by
  have hbegins : h <+: h ++ [x] := List.prefix_append _ _
  refine ⟨?_, fun hnone => ?_, fun editedAt hedited => ?_, fun preview hplain hpreview => ?_⟩
  . rw [sends_append]
    exact List.append_ne_nil_of_left_ne_nil hversion.sent _
  . obtain ⟨original, hmem, hsame⟩ := hversion.original hnone
    exact ⟨original, mem_sends_of_beginning hbegins hmem, hsame⟩
  . rw [edits_append, hx, Option.toList_none, List.append_nil]
    exact hversion.latest editedAt hedited
  . obtain ⟨url, hurl, hfetched⟩ := hversion.preview preview hplain hpreview
    exact ⟨url, hurl, hfetched.of_beginning hbegins⟩

theorem mem_modifyMessage_of_nodup {messageId : String} {f : ChatMessageRecord → ChatMessageRecord}
    {messages : List ChatMessageRecord} (hdistinct : (messages.map (·.messageId)).Nodup)
    (hmem : message ∈ modifyMessage messageId f messages)
    : (message ∈ messages ∧ message.messageId ≠ messageId)
        ∨ ∃ found, findMessage messageId messages = some found ∧ message = f found := by
  induction messages with
  | nil => contradiction
  | cons first rest ih =>
    rw [List.map_cons, List.nodup_cons] at hdistinct
    by_cases hid : first.messageId = messageId
    . rw [modifyMessage, if_pos hid] at hmem
      rcases List.mem_cons.1 hmem with rfl | hrest
      . exact .inr ⟨first, by simp [findMessage, hid], rfl⟩
      . refine .inl ⟨List.mem_cons_of_mem _ hrest, fun heq => hdistinct.1 ?_⟩
        exact List.mem_map.2 ⟨message, hrest, heq.trans hid.symm⟩
    . rw [modifyMessage, if_neg hid] at hmem
      rw [findMessage, List.find?_cons_of_neg (by simpa using hid)]
      rcases List.mem_cons.1 hmem with rfl | hrest
      . exact .inl ⟨List.mem_cons_self, hid⟩
      . exact (ih hdistinct.2 hrest).imp_left fun h => ⟨List.mem_cons_of_mem _ h.1, h.2⟩

theorem map_messageId_modifyMessage {messageId : String} {f : ChatMessageRecord → ChatMessageRecord}
    (hf : ∀ m, (f m).messageId = m.messageId) (messages : List ChatMessageRecord)
    : (modifyMessage messageId f messages).map (·.messageId) = messages.map (·.messageId) := by
  induction messages with
  | nil => rfl
  | cons first rest ih =>
    rw [modifyMessage]
    split
    . rw [List.map_cons, List.map_cons, hf]
    . rw [List.map_cons, List.map_cons, ih]

end Messages

namespace Traceable

variable {h : List (Env × Label)} {s s' : AppState} {e : Env} {l : Label} {roomId : String}

theorem append (htraceable : Traceable h s) (hl : l.rewrites = false) (hmessages : s'.roomMessages = s.roomMessages)
    (htasks : ∀ task ∈ s'.previewTasks, task ∈ s.previewTasks) : Traceable (h ++ [(e, l)]) s' := by
  have hbuffers (roomId : String) : s'.messages roomId = s.messages roomId := by
    rw [AppState.messages, hmessages]
    rfl
  refine ⟨fun roomId message hmem => ?_, fun roomId => ?_, fun task hmem => ?_⟩
  . rw [hbuffers] at hmem
    exact (htraceable.messages roomId message hmem).append (Label.editOf?_of_not_rewrites hl _ _)
  . rw [hbuffers]
    exact htraceable.distinct roomId
  . exact (htraceable.tasks task (htasks task hmem)).of_beginning (List.prefix_append _ _)

theorem store (htraceable : Traceable h s) {message : ChatMessageRecord}
    (hapart : (h ++ [(e, Label.changed roomId (.stored message))]).Pairwise StepsApart)
    (hedited : message.editedAt = none) (hpreview : message.preview = none)
    : Traceable (h ++ [(e, Label.changed roomId (.stored message))]) (s.change roomId (.stored message)) := by
  have hsent : (Label.changed roomId (.stored message)).sentOf? roomId message.messageId = some message :=
    if_pos ⟨rfl, rfl⟩
  have hother (room id : String) : (Label.changed roomId (.stored message)).editOf? room id = none := rfl
  have hnew : message.messageId ∉ (s.messages roomId).map (·.messageId) := by
    intro hmem
    obtain ⟨old, hold, hid⟩ := List.mem_map.1 hmem
    obtain ⟨original, horiginal⟩ := List.exists_mem_of_ne_nil _ (htraceable.messages roomId old hold).sent
    obtain ⟨y, hy, hyoriginal⟩ := List.mem_filterMap.1 horiginal
    have hyx := (List.pairwise_append.1 hapart).2.2 y hy _ (List.mem_singleton_self _)
    rw [hid] at hyoriginal
    have hnone := hyx.1.sentOf? hyoriginal
    rw [hsent] at hnone
    contradiction
  have hversion : Version (h ++ [(e, Label.changed roomId (.stored message))]) roomId message := by
    have hmem : message ∈ sends roomId message.messageId (h ++ [(e, Label.changed roomId (.stored message))]) := by
      rw [sends_append, hsent]
      exact List.mem_append_right _ (List.mem_singleton_self _)
    refine ⟨List.ne_nil_of_mem hmem, fun _ => ⟨message, hmem, rfl, rfl⟩, fun editedAt h => ?_, fun preview _ h => ?_⟩
    . rw [hedited] at h
      contradiction
    . rw [hpreview] at h
      contradiction
  refine ⟨fun roomId' m hmem => ?_, fun roomId' => ?_, fun task hmem => ?_⟩
  . rw [AppState.messages_change] at hmem
    split at hmem
    next hroom =>
      subst hroom
      rw [MessageChange.apply] at hmem
      rcases mem_pushMessage hmem with hold | rfl
      . exact (htraceable.messages _ m hold).append (hother _ _)
      . exact hversion
    next => exact (htraceable.messages roomId' m hmem).append (hother _ _)
  . rw [AppState.messages_change]
    split
    next hroom =>
      subst hroom
      rw [MessageChange.apply, pushMessage, List.map_drop, List.map_append]
      refine List.Nodup.sublist (List.drop_sublist _ _) ?_
      rw [List.nodup_append]
      refine ⟨htraceable.distinct _, List.nodup_singleton _, fun id hid id' hid' => ?_⟩
      rw [List.map_singleton, List.mem_singleton] at hid'
      rintro rfl
      exact hnew (hid' ▸ hid)
    next => exact htraceable.distinct roomId'
  . exact (htraceable.tasks task hmem).of_beginning (List.prefix_append _ _)

theorem modify (htraceable : Traceable h s) {messageId : String} {change : MessageChange} {found : ChatMessageRecord}
    {f : ChatMessageRecord → ChatMessageRecord} (hchange : change.apply = modifyMessage messageId f)
    (hfound : findMessage messageId (s.messages roomId) = some found) (hf : ∀ m, (f m).messageId = m.messageId)
    (hedit : ∀ room id, ¬ (room = roomId ∧ id = messageId) → (Label.changed roomId change).editOf? room id = none)
    (hversion : Version (h ++ [(e, Label.changed roomId change)]) roomId (f found))
    : Traceable (h ++ [(e, Label.changed roomId change)]) (s.change roomId change) := by
  refine ⟨fun roomId' m hmem => ?_, fun roomId' => ?_, fun task hmem => ?_⟩
  . rw [AppState.messages_change] at hmem
    split at hmem
    next hroom =>
      subst hroom
      rw [hchange] at hmem
      rcases mem_modifyMessage_of_nodup (htraceable.distinct _) hmem with ⟨hold, hid⟩ | ⟨found', hfound', rfl⟩
      . exact (htraceable.messages _ m hold).append (hedit _ _ fun heq => hid heq.2)
      . obtain rfl := Option.some.inj (hfound.symm.trans hfound')
        exact hversion
    next hroom => exact (htraceable.messages roomId' m hmem).append (hedit _ _ fun heq => hroom heq.1)
  . rw [AppState.messages_change]
    split
    next hroom =>
      subst hroom
      rw [hchange, map_messageId_modifyMessage hf]
      exact htraceable.distinct _
    next => exact htraceable.distinct roomId'
  . exact (htraceable.tasks task hmem).of_beginning (List.prefix_append _ _)

theorem edit (htraceable : Traceable h s) {messageId text : String} {profile : UserProfile}
    {encrypted : Option EncryptedPayload} {editedAt : Nat} {found : ChatMessageRecord}
    (hfound : findMessage messageId (s.messages roomId) = some found)
    : Traceable (h ++ [(e, Label.changed roomId (.edited messageId text profile encrypted editedAt))])
        (s.change roomId (.edited messageId text profile encrypted editedAt)) := by
  obtain ⟨hmem, rfl⟩ := findMessage_eq_some hfound
  refine htraceable.modify rfl hfound (fun _ => rfl) (fun room id hne => if_neg fun heq => hne ⟨heq.1.symm, heq.2.symm⟩) ?_
  have hedit : (Label.changed roomId (.edited found.messageId text profile encrypted editedAt)).editOf? roomId
      found.messageId = some { text, encrypted, editedAt } := if_pos ⟨rfl, rfl⟩
  refine ⟨?_, fun h => ?_, fun editedAt' h => ?_, fun preview _ h => ?_⟩
  . rw [sends_append]
    exact List.append_ne_nil_of_left_ne_nil (htraceable.messages roomId found hmem).sent _
  . contradiction
  . obtain rfl := Option.some.inj h
    rw [edits_append, hedit, Option.toList_some, List.getLast?_concat]
  . contradiction

theorem decorate (htraceable : Traceable h s) {task : PreviewTask} {preview : LinkPreview} {found : ChatMessageRecord}
    (hapart : (h ++ [(e, Label.changed task.room (.decorated task.messageId preview))]).Pairwise StepsApart)
    (hfound : findMessage task.messageId (s.messages task.room) = some found) (htask : task.ComesFrom h)
    (hadmits : task.cause.admits found) (hfetched : Fetched task.url preview h)
    : Traceable (h ++ [(e, Label.changed task.room (.decorated task.messageId preview))])
        (s.change task.room (.decorated task.messageId preview)) := by
  obtain ⟨hmem, hid⟩ := findMessage_eq_some hfound
  have hversion := htraceable.messages task.room found hmem
  have hold := hversion.append (x := (e, Label.changed task.room (.decorated task.messageId preview))) rfl
  refine htraceable.modify rfl hfound (fun _ => rfl) (fun _ _ _ => rfl) ?_
  refine ⟨hold.sent, hold.original, hold.latest, fun preview' hplain hpreview' => ?_⟩
  obtain rfl := Option.some.inj hpreview'
  suffices hurl : findFirstUrl found.text = some task.url from
    ⟨task.url, hurl, hfetched.of_beginning (List.prefix_append _ _)⟩
  have hapart' : h.Pairwise StepsApart := (List.pairwise_append.1 hapart).1
  unfold PreviewTask.ComesFrom at htask
  cases hcause : task.cause with
  | sent =>
    rw [hcause] at htask hadmits
    obtain ⟨message, hmessage, -, hurl⟩ := htask
    have hnone : found.editedAt = none := by simpa using (Bool.and_eq_true_iff.1 hadmits).2
    obtain ⟨original, horiginal, htext, -⟩ := hversion.original hnone
    rw [hid] at horiginal
    rw [← htext, eq_of_mem_sends hapart' horiginal hmessage]
    exact hurl
  | edited editedAt =>
    rw [hcause] at htask hadmits
    obtain ⟨edit, hedit, rfl, hurl⟩ := htask
    have hedited : found.editedAt = some edit.editedAt := of_decide_eq_true (Bool.and_eq_true_iff.1 hadmits).2
    have hlast := hversion.latest _ hedited
    rw [hid] at hlast
    have hplain' : found.encrypted = none := hplain
    rcases not_overtaken hapart' hedit hlast with heq | hnot
    . rw [heq, MessageEdit.url?, hplain'] at hurl
      exact hurl
    . by_contra hne
      refine hnot ⟨rfl, by rw [hurl]; rfl, by rw [hplain']; rfl, fun heq => hne ?_⟩
      rw [hurl, MessageEdit.url?, hplain'] at heq
      exact heq
  | requested editedAt =>
    rw [hcause] at htask
    exact htask.elim

end Traceable

end Lqxp
