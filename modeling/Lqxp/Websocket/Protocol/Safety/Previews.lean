import Lqxp.Websocket.Protocol.Lemmas.Previews

/-!
This module contains the safety of previews: when the preview of a message is the one of the first link of its text.
-/

namespace Lqxp

/--
The requests that write messages, and the runtime that picks up spawned task number `n`.
-/
inductive PreviewRequest where
  | send (sid : String) (d : Json)
  | edit (sid : String) (d : Json)
  | task (n : Nat)

def PreviewRequest.handle : PreviewRequest → Proto Unit
  | .send sid d => do let _ ← sendChatMessage sid d
  | .edit sid d => do let _ ← editMessage sid d
  | .task n => do let _ ← runPreviewTask n

def previewServer : Prog.System PreviewRequest Env AppState Label Unit Unit where
  handle := PreviewRequest.handle
  start _ := ()
  next _ _ := ()

abbrev PreviewPool := Prog.Pool Env AppState Label Unit Unit

/--
The preview of a message that is not encrypted is what a step was told about the first link of its text.
-/
def PreviewsMatch (h : List (Env × Label)) (s : AppState) : Prop :=
  ∀ roomId, ∀ message ∈ s.messages roomId, message.encrypted = none →
    ∀ preview, message.preview = some preview →
      ∃ url, findFirstUrl message.text = some url ∧ Fetched url preview h

/--
A piece of a handler that neither changes messages nor spawns tasks.
-/
abbrev Bystander (p : Proto α) : Prop :=
  Prog.Spec (fun (_ : Unit) _ => ())
    (fun _ _ s l s' => l.rewrites = false ∧ s'.roomMessages = s.roomMessages ∧ s'.previewTasks = s.previewTasks)
    (fun _ _ => True) p ()

namespace Bystander

theorem pure (a : α) : Bystander (pure a) := trivial

theorem bind {p : Proto α} {f : α → Proto β} (hp : Bystander p) (hf : ∀ a, Bystander (f a)) : Bystander (p >>= f) :=
  Prog.Spec.bind_iff.2 (hp.mono fun a _ _ => hf a)

theorem look (f : Env → AppState → α) : Bystander (look f) := fun _ _ => ⟨⟨rfl, rfl, rfl⟩, trivial⟩

theorem nowMs : Bystander nowMs := fun _ _ => ⟨⟨rfl, rfl, rfl⟩, trivial⟩

theorem hitRateLimit (key : String) (limit windowMs : Nat) : Bystander (hitRateLimit key limit windowMs) :=
  fun _ _ => ⟨⟨rfl, rfl, rfl⟩, trivial⟩

theorem roomRecord (roomId : String) : Bystander (roomRecord roomId) := fun _ _ => ⟨⟨rfl, rfl, rfl⟩, trivial⟩

theorem broadcastToRoom (gameId : String) (payload : Json) : Bystander (broadcastToRoom gameId payload) :=
  fun _ _ => ⟨⟨rfl, rfl, rfl⟩, trivial⟩

theorem identifiedPlayer (sid : String) : Bystander (identifiedPlayer sid) := by
  refine .bind (Prog.Spec.atom_iff.2 fun e s => ⟨?_, trivial⟩) fun _ => .pure _
  split
  . exact ⟨rfl, rfl, rfl⟩
  . exact ⟨rfl, rfl, rfl⟩

theorem respondToSender (sid : String) (payload : Json) : Bystander (respondToSender sid payload) := by
  refine Prog.Spec.atom_iff.2 fun e s => ⟨?_, trivial⟩
  split
  . exact ⟨rfl, rfl, rfl⟩
  . exact ⟨rfl, rfl, rfl⟩

theorem respondError (sid : String) (op : Nat) (text : String) (reqId : Option String)
    : Bystander (respondError sid op text reqId) :=
  .bind (.respondToSender _ _) fun _ => .pure _

theorem respondOk (sid : String) (op : Nat) (d : List (String × Json)) (reqId : Option String)
    : Bystander (respondOk sid op d reqId) :=
  .bind (.respondToSender _ _) fun _ => .pure _

theorem isSilenced (roomId userId : String) : Bystander (isSilenced roomId userId) := by
  refine .bind (.roomRecord _) fun room => ?_
  split
  . exact .bind .nowMs fun _ => .pure _
  . exact .pure _

theorem admitSender (sid roomId : String) (now : Nat) : Bystander (admitSender sid roomId now) := by
  refine Prog.Spec.atom_iff.2 fun e s => ⟨?_, trivial⟩
  split
  . exact ⟨rfl, rfl, rfl⟩
  . dsimp only
    split
    . exact ⟨rfl, rfl, rfl⟩
    . split
      . exact ⟨rfl, rfl, rfl⟩
      . split
        . exact ⟨rfl, rfl, rfl⟩
        . exact ⟨rfl, rfl, rfl⟩

theorem parseAttachment (raw : Option Json) : Bystander (parseAttachment raw) := by
  have hstore (extension mimeType : String) (bytes : List UInt8)
      : Bystander (storeUploadedBytes extension bytes mimeType) := by
    refine Prog.Spec.atom_iff.2 fun e s => ⟨?_, trivial⟩
    split
    . exact ⟨rfl, rfl, rfl⟩
    . exact ⟨rfl, rfl, rfl⟩
  unfold Lqxp.parseAttachment
  split
  . split
    . exact .pure _
    . refine .bind (hstore _ _ _) fun stored => ?_
      split
      . exact .pure _
      . exact .pure _
  . exact .pure _

end Bystander

/--
A piece of a handler with the steps `h` behind it keeps the buffers and the tasks traceable.
-/
abbrev KeepsTraceable (Q : α → List (Env × Label) → Prop) (p : Proto α) (h : List (Env × Label)) : Prop :=
  Prog.Upholds (fun h s => h.Pairwise StepsApart → Traceable h s) Q p h

namespace KeepsTraceable

variable {h : List (Env × Label)} {Q : α → List (Env × Label) → Prop}

theorem of_bystander {p : Proto α} (hp : Bystander p) : KeepsTraceable (fun _ _ => True) p h := by
  refine .of_spec (fun h e s l s' hstep htraceable hapart => ?_) hp
  obtain ⟨hl, hmessages, htasks⟩ := hstep
  refine (htraceable (List.pairwise_append.1 hapart).1).append hl hmessages fun task hmem => ?_
  rwa [htasks] at hmem

theorem after {p : Proto α} {f : α → Proto β} {R : β → List (Env × Label) → Prop} (hp : Bystander p)
    (hf : ∀ a h', h <+: h' → KeepsTraceable R (f a) h') : KeepsTraceable R (p >>= f) h :=
  (of_bystander hp).bind fun a h' hbegins _ => hf a h' hbegins

theorem spawnPreview {task : PreviewTask} (htask : task.ComesFrom h)
    : KeepsTraceable (fun _ _ => True) (spawnPreview task) h := by
  refine .atom fun h' e s hbegins htraceable => ⟨fun hapart => ?_, trivial⟩
  have hbefore := htraceable (List.pairwise_append.1 hapart).1
  have hquiet : Traceable (h' ++ [(e, .quiet)]) s := hbefore.append rfl rfl fun _ hmem => hmem
  obtain ⟨hmessages, hdistinct, htasks⟩ := hquiet
  refine ⟨hmessages, hdistinct, fun task' hmem => ?_⟩
  rcases List.mem_append.1 hmem with hold | hnew
  . exact htasks task' hold
  . rw [List.mem_singleton.1 hnew]
    exact htask.of_beginning (hbegins.trans (List.prefix_append _ _))

theorem storeRoomMessage {roomId : String} {message : ChatMessageRecord} (hedited : message.editedAt = none)
    (hpreview : message.preview = none)
    : KeepsTraceable (fun stored h => stored ∈ sends roomId stored.messageId h ∧ stored.encrypted = message.encrypted
        ∧ stored.text = message.text) (storeRoomMessage roomId message) h := by
  refine .atom fun h' e s _ htraceable => ⟨fun hapart => ?_, ?_, rfl, rfl⟩
  . exact (htraceable (List.pairwise_append.1 hapart).1).store hapart hedited hpreview
  . rw [sends_append]
    exact List.mem_append_right _ (Option.mem_toList.2 (if_pos ⟨rfl, rfl⟩))

theorem announceMessage {sid roomId : String} {draft : Draft} {stored : ChatMessageRecord} {reqId : Option String}
    (hsent : stored ∈ sends roomId stored.messageId h) (hencrypted : stored.encrypted = draft.encrypted)
    (htext : draft.encrypted = none → stored.text = draft.text)
    : KeepsTraceable (fun _ _ => True) (announceMessage sid roomId draft stored reqId) h := by
  refine after (.broadcastToRoom _ _) fun _ h₁ hprefix₁ => after (.respondOk _ _ _ _) fun _ h₂ hprefix₂ => ?_
  split
  next url hurl =>
    refine (spawnPreview ?_).bind fun _ _ _ _ => trivial
    by_cases hplain : draft.encrypted.isSome
    . rw [if_pos hplain] at hurl
      contradiction
    . rw [if_neg hplain] at hurl
      have hnone : draft.encrypted = none := Option.not_isSome_iff_eq_none.1 hplain
      exact ⟨stored, mem_sends_of_beginning (hprefix₁.trans hprefix₂) hsent, hencrypted.trans hnone, by rw [htext hnone, hurl]⟩
  next => exact trivial

theorem deliverMessage (sid roomId : String) (draft : Draft) (reqId : Option String)
    : KeepsTraceable (fun _ _ => True) (deliverMessage sid roomId draft reqId) h := by
  refine after (.hitRateLimit _ _ _) fun limited h₁ _ => ?_
  split
  . exact of_bystander (.respondError _ _ _ _)
  refine after .nowMs fun now h₂ _ => after (.admitSender _ _ _) fun admitted h₃ _ => ?_
  split
  . exact of_bystander (.respondError _ _ _ _)
  refine after (.look _) fun profile h₄ _ => after (.isSilenced _ _) fun silenced h₅ _ => ?_
  split
  . exact of_bystander (.respondError _ _ _ _)
  refine (storeRoomMessage rfl rfl).bind fun stored h₆ _ hstored => ?_
  obtain ⟨hsent, hencrypted, htext⟩ := hstored
  refine announceMessage hsent hencrypted fun hnone => htext.trans ?_
  show (if draft.encrypted.isSome then "" else draft.text) = _
  rw [hnone]
  rfl

theorem sendChatMessage (sid : String) (d : Json)
    : KeepsTraceable (fun _ _ => True) (sendChatMessage sid d) h := by
  unfold Lqxp.sendChatMessage
  dsimp only
  split
  . exact of_bystander (.respondError _ _ _ _)
  refine after (.parseAttachment _) fun attachment h₁ _ => ?_
  split
  . exact of_bystander (.respondError _ _ _ _)
  split
  . exact of_bystander (.respondError _ _ _ _)
  . exact deliverMessage _ _ _ _

theorem editFoundMessage {messageId roomId text : String} {player : PlayerSession}
    {encrypted : Option EncryptedPayload} {editedAt : Nat}
    : KeepsTraceable (fun result h => ∀ edited, result = .ok edited →
        { text, encrypted, editedAt } ∈ edits roomId messageId h)
        (editFoundMessage messageId roomId text player encrypted editedAt) h := by
  refine .atom fun h' e s _ htraceable => ?_
  have hrefused {error : String} : (∀ edited, (.error error : Except String ChatMessageRecord) = .ok edited →
      { text, encrypted, editedAt } ∈ edits roomId messageId (h' ++ [(e, .quiet)])) := fun _ h => nomatch h
  have hquiet : (h' ++ [(e, Label.quiet)]).Pairwise StepsApart → Traceable (h' ++ [(e, Label.quiet)]) s :=
    fun hapart => (htraceable (List.pairwise_append.1 hapart).1).append rfl rfl fun _ hmem => hmem
  split
  . exact ⟨hquiet, hrefused⟩
  next message hfound =>
    split
    . exact ⟨hquiet, hrefused⟩
    split
    . exact ⟨hquiet, hrefused⟩
    split
    . exact ⟨hquiet, hrefused⟩
    refine ⟨fun hapart => (htraceable (List.pairwise_append.1 hapart).1).edit hfound, fun _ _ => ?_⟩
    rw [edits_append]
    exact List.mem_append_right _ (Option.mem_toList.2 (if_pos ⟨rfl, rfl⟩))

theorem applyEdit (sid messageId roomId text : String) (encrypted : Option EncryptedPayload) (reqId : Option String)
    : KeepsTraceable (fun _ _ => True) (applyEdit sid messageId roomId text encrypted reqId) h := by
  refine after (.identifiedPlayer _) fun player h₁ _ => ?_
  split
  . split
    . exact of_bystander (.respondError _ _ _ _)
    refine after .nowMs fun editedAt h₂ _ => editFoundMessage.bind fun result h₃ _ hresult => ?_
    split
    . exact of_bystander (.respondError _ _ _ _)
    next edited =>
      have hedit := hresult edited rfl
      refine after (.broadcastToRoom _ _) fun _ h₄ hprefix₄ => after (.respondOk _ _ _ _) fun _ h₅ hprefix₅ => ?_
      split
      next url hurl =>
        refine (spawnPreview ?_).bind fun _ _ _ _ => trivial
        exact ⟨_, mem_edits_of_beginning (hprefix₄.trans hprefix₅) hedit, rfl, hurl⟩
      next => exact trivial
  . exact of_bystander (.respondError _ _ _ _)

theorem editMessage (sid : String) (d : Json) : KeepsTraceable (fun _ _ => True) (editMessage sid d) h := by
  refine after (.hitRateLimit _ _ _) fun limited h₁ _ => ?_
  split
  . exact of_bystander (.respondError _ _ _ _)
  split
  . split
    . exact of_bystander (.respondError _ _ _ _)
    . dsimp only
      split
      . exact of_bystander (.respondError _ _ _ _)
      . split
        . exact of_bystander (.respondError _ _ _ _)
        . exact applyEdit _ _ _ _ _ _
  . exact of_bystander (.respondError _ _ _ _)

theorem takePreview (n : Nat)
    : KeepsTraceable (fun task h => h.Pairwise StepsApart → ∀ found, task = some found → found.ComesFrom h)
        (takePreview n) h := by
  refine .atom fun h' e s _ htraceable => ⟨fun hapart => ?_, fun hapart task htask => ?_⟩
  . exact (htraceable (List.pairwise_append.1 hapart).1).append rfl rfl fun _ hmem => List.mem_of_mem_eraseIdx hmem
  . have hbefore := htraceable (List.pairwise_append.1 hapart).1
    exact (hbefore.tasks task (List.mem_of_getElem? htask)).of_beginning (List.prefix_append _ _)

theorem fetch (url : String)
    : KeepsTraceable (fun preview h => ∀ found, preview = some found → Fetched url found h)
        (look fun e _ => e.fetch url) h := by
  refine .atom fun h' e s _ htraceable => ⟨fun hapart => ?_, fun preview hpreview => ?_⟩
  . exact (htraceable (List.pairwise_append.1 hapart).1).append rfl rfl fun _ hmem => hmem
  . exact ⟨_, List.mem_append_right _ (List.mem_singleton_self _), hpreview⟩

theorem patchPreview {task : PreviewTask} {preview : LinkPreview}
    (htask : h.Pairwise StepsApart → task.ComesFrom h) (hfetched : Fetched task.url preview h)
    : KeepsTraceable (fun _ _ => True) (patchPreview task preview) h := by
  refine .atom fun h' e s hbegins htraceable => ?_
  have hquiet : (h' ++ [(e, Label.quiet)]).Pairwise StepsApart → Traceable (h' ++ [(e, Label.quiet)]) s :=
    fun hapart => (htraceable (List.pairwise_append.1 hapart).1).append rfl rfl fun _ hmem => hmem
  split
  . exact ⟨hquiet, trivial⟩
  next message hfound =>
    split
    next hadmits =>
      refine ⟨fun hapart => ?_, trivial⟩
      have hbefore := (List.pairwise_append.1 hapart).1
      have hcomes := (htask (hbefore.sublist hbegins.sublist)).of_beginning hbegins
      exact (htraceable hbefore).decorate hapart hfound hcomes hadmits (hfetched.of_beginning hbegins)
    next => exact ⟨hquiet, trivial⟩

theorem runPreviewTask (n : Nat) : KeepsTraceable (fun _ _ => True) (runPreviewTask n) h := by
  refine (takePreview n).bind fun task h₁ _ htask => ?_
  split
  next found =>
    refine (fetch _).bind fun preview h₂ hprefix₂ hpreview => ?_
    split
    next preview =>
      refine (patchPreview (fun hapart => ?_) (hpreview preview rfl)).bind fun patched h₃ _ _ => ?_
      . exact (htask (hapart.sublist hprefix₂.sublist) found rfl).of_beginning hprefix₂
      . split
        . exact after (.broadcastToRoom _ _) fun _ _ _ => trivial
        . exact trivial
    next => exact trivial
  next => exact trivial

theorem handle (req : PreviewRequest) : KeepsTraceable (fun _ _ => True) req.handle h := by
  cases req with
  | send sid d => exact (sendChatMessage sid d).bind fun _ _ _ _ => trivial
  | edit sid d => exact (editMessage sid d).bind fun _ _ _ _ => trivial
  | task n => exact (runPreviewTask n).bind fun _ _ _ _ => trivial

end KeepsTraceable

/--
As long as message ids are not drawn twice and no edit replaces the link of a message in the millisecond in which an
earlier one has set it, previews match the text, however edits and tasks interleave.
-/
theorem previewsMatch {p q : PreviewPool} {tr : List (Prog.Event PreviewRequest Env Label Unit)}
    (hp : p.threads = []) (hmessages : p.state.roomMessages = ∅) (htasks : p.state.previewTasks = [])
    (hrun : Prog.Run previewServer (fun _ _ _ _ _ => True) p tr q) (hapart : (Prog.steps tr).Pairwise StepsApart)
    : PreviewsMatch (Prog.steps tr) q.state := by
  have hempty (roomId : String) : p.state.messages roomId = [] := by
    rw [AppState.messages, hmessages]
    rfl
  have hstart : Traceable [] p.state := by
    refine ⟨fun roomId message hmem => ?_, fun roomId => ?_, fun task hmem => ?_⟩
    . rw [hempty] at hmem
      contradiction
    . rw [hempty]
      exact List.nodup_nil
    . rw [htasks] at hmem
      contradiction
  have htraceable := hrun.of_upholds (I := fun h s => h.Pairwise StepsApart → Traceable h s) (fun req => KeepsTraceable.handle req) hp
    (fun _ => hstart) hapart
  exact fun roomId message hmem hplain preview hpreview =>
    (htraceable.messages roomId message hmem).preview preview hplain hpreview

section Classroom

def writingServer : PreviewPool where
  state :=
    { players := List.foldr (fun player players => players.insert player.id player) ∅
        [{ id := "a", userId := "u", username := "uwe", rooms := ["classroom"] }] }
  threads := []

def textRequest (text : String) : Json := .obj [("gameId", .str "classroom"), ("text", .str text)]

def editRequest (text : String) : Json :=
  .obj [("gameId", .str "classroom"), ("messageId", .str "m"), ("text", .str text)]

/--
The web, where every page is called by its address.
-/
def web : String → Option LinkPreview := fun url => some { url }

/--
Somebody sends a message and puts a link into it, which gets its preview.
-/
def writeLink : List (Prog.Cmd PreviewRequest Env) :=
  Prog.Cmd.serve (.send "a" (textRequest "hello")) 0 8 { randomId := "m" }
    ++ Prog.Cmd.serve (.edit "a" (editRequest "see http://a")) 1 7 { now := 500 }
    ++ Prog.Cmd.serve (.task 0) 2 4 { now := 600, fetch := web }

theorem previewsMatch_writeLink
    : ∃ tr, ∃ q : PreviewPool, Prog.Run previewServer (fun _ _ _ _ _ => True) writingServer tr q
        ∧ (q.state.messages "classroom").map (fun m => (m.text, m.preview.isSome)) = [("see http://a", true)]
        ∧ PreviewsMatch (Prog.steps tr) q.state := by
  obtain ⟨tr, q, hrun, htest⟩ := Prog.Run.exists_of_exec previewServer (fun _ _ _ _ _ => true) writeLink writingServer
    (fun tr q => (q.state.messages "classroom").map (fun m => (m.text, m.preview.isSome)) = [("see http://a", true)]
      && decide ((Prog.steps tr).Pairwise StepsApart))
    (by decide +kernel)
  obtain ⟨hmessages, hapart⟩ := Bool.and_eq_true_iff.1 htest
  have hrun' := hrun.mono fun _ _ _ _ _ _ => trivial
  exact ⟨tr, q, hrun', of_decide_eq_true hmessages, previewsMatch rfl rfl rfl hrun' (of_decide_eq_true hapart)⟩

/--
The author puts in another link in the same millisecond, before the preview of the first one is there.
-/
def replaceLink : List (Prog.Cmd PreviewRequest Env) :=
  Prog.Cmd.serve (.send "a" (textRequest "hello")) 0 8 { randomId := "m" }
    ++ Prog.Cmd.serve (.edit "a" (editRequest "see http://a")) 1 7 { now := 500 }
    ++ Prog.Cmd.serve (.edit "a" (editRequest "see http://b")) 2 7 { now := 500 }
    ++ Prog.Cmd.serve (.task 0) 3 4 { now := 600, fetch := web }

theorem not_previewsMatch
    : ¬∀ (p q : PreviewPool) tr, p.threads = [] → p.state.roomMessages = ∅ → p.state.previewTasks = [] →
        Prog.Run previewServer (fun _ _ _ _ _ => True) p tr q →
          (Prog.steps tr).Pairwise (fun x y : Env × Label => x.1.now ≤ y.1.now) →
            (Prog.steps tr).Pairwise (fun x y : Env × Label => IdsApart x.2 y.2) → PreviewsMatch (Prog.steps tr) q.state := by
  intro hall
  obtain ⟨tr, q, hrun, htest⟩ := Prog.Run.exists_of_exec previewServer (fun _ _ _ _ _ => true) replaceLink writingServer
    (fun tr q => (q.state.messages "classroom").any (fun m => m.text = "see http://b" && m.encrypted.isNone
        && m.preview = some { url := "http://a" })
      && (Prog.steps tr).all (fun x => x.1.fetch "http://b" ≠ some { url := "http://a" })
      && decide ((Prog.steps tr).Pairwise fun x y : Env × Label => x.1.now ≤ y.1.now)
      && decide ((Prog.steps tr).Pairwise fun x y : Env × Label => IdsApart x.2 y.2))
    (by decide +kernel)
  simp only [Bool.and_eq_true, decide_eq_true_eq, List.any_eq_true, List.all_eq_true] at htest
  obtain ⟨⟨⟨⟨message, hmem, ⟨htext, hplain⟩, hpreview⟩, hfetch⟩, hclock⟩, hids⟩ := htest
  obtain ⟨url, hurl, x, hx, hfetched⟩ := hall _ q tr rfl rfl rfl (hrun.mono fun _ _ _ _ _ _ => trivial) hclock hids
    "classroom" message hmem (Option.isNone_iff_eq_none.1 hplain) _ hpreview
  rw [htext] at hurl
  obtain rfl : "http://b" = url := Option.some.inj ((by decide +kernel : findFirstUrl "see http://b" = _).symm.trans hurl)
  exact hfetch x hx hfetched

end Classroom

end Lqxp
