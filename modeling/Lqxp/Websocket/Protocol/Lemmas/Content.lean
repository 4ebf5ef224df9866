import Lqxp.Websocket.Protocol.Lemmas.Idle
import Lqxp.Websocket.Protocol.Lemmas.Server

/-!
This module contains what the handlers put into messages: encrypted content comes without plain content
and is made for the room that it goes to.
-/

namespace Lqxp

theorem isRoomMismatch_of_parseDestination {d : Json} {roomId : String}
    {encrypted : Option EncryptedPayload} (h : parseDestination d = .ok (roomId, encrypted))
    : isRoomMismatch encrypted roomId = false := by
  unfold parseDestination at h
  cases hpayload : parseEncryptedPayload (d.get? "encrypted") with
  | error text =>
    rw [hpayload] at h
    contradiction
  | ok payload =>
    rw [hpayload] at h
    simp only [bind, Except.bind] at h
    split at h
    next target _ =>
      split at h
      . contradiction
      next hmatch =>
        cases hvalid : validateRoomId target with
        | error text =>
          rw [hvalid] at h
          contradiction
        | ok =>
          rw [hvalid] at h
          cases h
          simpa using hmatch
    next => contradiction

/--
A message in the room carries an encrypted payload alone, and only one made for the room.
-/
def ChatMessageRecord.Exclusive (message : ChatMessageRecord) (roomId : String) : Prop :=
  ∀ payload, message.encrypted = some payload →
    message.text = "" ∧ message.attachment = none ∧ ∀ r, payload.roomId = some r → r = roomId

/--
The content that a step stores in a message is exclusive.
-/
def Label.Exclusive : Label → Prop
  | .changed roomId (.stored message) => message.Exclusive roomId
  | .changed roomId (.edited _ text _ encrypted _) =>
    ∀ payload, encrypted = some payload → text = "" ∧ ∀ r, payload.roomId = some r → r = roomId
  | _ => True

abbrev Exclusive (p : Proto α) : Prop := p.Emits Label.Exclusive

namespace Exclusive

theorem bind {p : Proto α} {f : α → Proto β} (hp : Exclusive p) (hf : ∀ a, Exclusive (f a))
    : Exclusive (p >>= f) :=
  Prog.Emits.bind hp hf

theorem of_idle {p : Proto α} (h : Idle p) : Exclusive p := by
  refine h.mono fun l hl => ?_
  cases l with
  | changed => simp [Label.idle] at hl
  | _ => trivial

theorem respondError (sid : String) (op : Nat) (text : String) (reqId : Option String)
    : Exclusive (respondError sid op text reqId) :=
  .of_idle (.respondError _ _ _ _)

theorem identifiedPlayer (sid : String) : Exclusive (identifiedPlayer sid) := by
  refine .bind (Prog.Emits.atom fun e s => ?_) fun player => .of_idle (.pure _)
  split
  . trivial
  . trivial

section Sending

theorem admitSender (sid roomId : String) (now : Nat) : Exclusive (admitSender sid roomId now) := by
  refine .atom fun e s => ?_
  split
  . trivial
  . dsimp only
    split
    . trivial
    split
    . trivial
    split
    . trivial
    . trivial

theorem announceMessage (sid roomId : String) (draft : Draft) (stored : ChatMessageRecord)
    (reqId : Option String) : Exclusive (announceMessage sid roomId draft stored reqId) := by
  refine .of_idle <| .bind (.broadcastToRoom _ _) fun _ => .bind (.respondOk _ _ _ _) fun _ => ?_
  split
  . exact .bind (.spawnPreview _) fun _ => .pure _
  . exact .pure _

theorem storeRoomMessage {roomId : String} {message : ChatMessageRecord}
    (h : message.Exclusive roomId) : Exclusive (storeRoomMessage roomId message) :=
  .atom fun _ _ => h

theorem of_draft {draft : Draft} {roomId : String} (h : isRoomMismatch draft.encrypted roomId = false)
    (username userId : String) (profile : UserProfile) (now : Nat)
    : (draft.toMessage roomId username userId profile now).Exclusive roomId := by
  intro payload hpayload
  have hencrypted : draft.encrypted = some payload := hpayload
  refine ⟨by simp [Draft.toMessage, hencrypted], by simp [Draft.toMessage, hencrypted], ?_⟩
  intro r hr
  simpa [isRoomMismatch, hencrypted, hr] using h

theorem deliverMessage {sid roomId : String} {draft : Draft} {reqId : Option String}
    (h : isRoomMismatch draft.encrypted roomId = false)
    : Exclusive (deliverMessage sid roomId draft reqId) := by
  refine .bind (.of_idle <| .hitRateLimit _ _ _) fun limited => ?_
  split
  . exact .respondError _ _ _ _
  refine .bind (.of_idle .nowMs) fun now => .bind (.admitSender _ _ _) fun admitted => ?_
  split
  . exact .respondError _ _ _ _
  refine .bind (.of_idle <| .look _) fun profile => ?_
  refine .bind (.of_idle <| .isSilenced _ _) fun silenced => ?_
  split
  . exact .respondError _ _ _ _
  refine .bind (.storeRoomMessage (of_draft h _ _ _ _)) fun stored => ?_
  exact .announceMessage _ _ _ _ _

theorem sendChatMessage (sid : String) (d : Json) : Exclusive (sendChatMessage sid d) := by
  unfold Lqxp.sendChatMessage
  dsimp only
  split
  . exact .respondError _ _ _ _
  next roomId encrypted hdestination =>
    refine .bind (.of_idle <| .parseAttachment _) fun attachment => ?_
    split
    . exact .respondError _ _ _ _
    . split
      . exact .respondError _ _ _ _
      . exact .deliverMessage (isRoomMismatch_of_parseDestination hdestination)

end Sending

section Editing

theorem editFoundMessage {messageId roomId text : String} {player : PlayerSession}
    {encrypted : Option EncryptedPayload} {editedAt : Nat}
    (h : ∀ payload, encrypted = some payload → text = "" ∧ ∀ r, payload.roomId = some r → r = roomId)
    : Exclusive (editFoundMessage messageId roomId text player encrypted editedAt) := by
  refine .atom fun e s => ?_
  split
  . trivial
  . dsimp only
    split
    . trivial
    split
    . trivial
    split
    . trivial
    . exact h

theorem applyEdit {sid messageId roomId text : String} {encrypted : Option EncryptedPayload}
    {reqId : Option String}
    (h : ∀ payload, encrypted = some payload → text = "" ∧ ∀ r, payload.roomId = some r → r = roomId)
    : Exclusive (applyEdit sid messageId roomId text encrypted reqId) := by
  refine .bind (.identifiedPlayer _) fun player => ?_
  split
  . split
    . exact .respondError _ _ _ _
    refine .bind (.of_idle .nowMs) fun editedAt => .bind (.editFoundMessage h) fun edited => ?_
    split
    . exact .respondError _ _ _ _
    refine .of_idle <| .bind (.broadcastToRoom _ _) fun _ => .bind (.respondOk _ _ _ _) fun _ => ?_
    split
    . exact .bind (.spawnPreview _) fun _ => .pure _
    . exact .pure _
  . exact .respondError _ _ _ _

theorem editMessage (sid : String) (d : Json) : Exclusive (editMessage sid d) := by
  refine .bind (.of_idle <| .hitRateLimit _ _ _) fun limited => ?_
  split
  . exact .respondError _ _ _ _
  split
  . split
    . exact .respondError _ _ _ _
    next roomId encrypted hdestination =>
      have hmatch := isRoomMismatch_of_parseDestination hdestination
      dsimp only
      split
      . exact .respondError _ _ _ _
      next hplain =>
        split
        . exact .respondError _ _ _ _
        . refine .applyEdit fun payload hpayload => ⟨by simpa [hpayload] using hplain, ?_⟩
          intro r hr
          simpa [isRoomMismatch, hpayload, hr] using hmatch
  . exact .respondError _ _ _ _

end Editing

theorem handler (op : Op) (sid : String) (d : Json) : Exclusive (op.handler sid d) := by
  have hother (hsend : op ≠ .send) (hedit : op ≠ .edit) : Exclusive (op.handler sid d) := by
    refine .of_spec (fun g => g.req = .message sid op d) ?_ (Sound.handler op sid d) rfl
    intro g e s l s' hreq hstep
    have hop : g.req.op? = some op := by rw [hreq]; rfl
    refine ⟨?_, (Memory.next_req g l).trans hreq⟩
    cases l with
    | changed roomId change =>
      cases change with
      | stored message =>
        have hstored := hop.symm.trans hstep.2.1
        exact absurd (Option.some.inj hstored) hsend
      | edited messageId text profile encrypted editedAt =>
        obtain ⟨-, sid', d', -, -, -, hreq', -⟩ := hstep
        rw [hreq'] at hop
        exact absurd (Option.some.inj hop).symm hedit
      | _ => trivial
    | _ => trivial
  cases op with
  | send => exact .sendChatMessage sid d
  | edit => exact .editMessage sid d
  | _ => exact hother (by decide) (by decide)

end Exclusive

end Lqxp
