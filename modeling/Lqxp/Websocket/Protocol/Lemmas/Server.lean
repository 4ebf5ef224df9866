import Lqxp.Websocket.Protocol.Lemmas.Rooms
import Lqxp.Websocket.Protocol.Lemmas.Sessions

/-!
This module contains the proof that every step of every handler is one that `Transition` allows.
-/

namespace Lqxp

namespace Sound

variable {g : Memory}

theorem httpUploadRoomIcon (userId roomId : String) (file : UploadedFile)
    : Sound (fun _ => Memory.Settled) (Http.uploadRoomIcon userId roomId file)
        { req := .httpIcon userId roomId file } := by
  have hnotBan (g : Memory) (hreq : g.req = .httpIcon userId roomId file)
      : g.req.op? ≠ some .ban := by simp [hreq, Request.op?]
  unfold Http.uploadRoomIcon
  dsimp only
  split
  . exact .pure ⟨rfl, rfl⟩
  refine .bind <| .look fun isMember => ?_
  split
  . exact .pure ⟨rfl, rfl⟩
  refine .bind <| .roomRecord fun room => ?_
  split
  . exact .pure ⟨rfl, rfl⟩
  split
  . exact .pure ⟨rfl, rfl⟩
  refine .bind <| .roomIcon fun icon read => .bind <| .removeIconFile <| .bind <| .storeUploadedBytes fun stored => ?_
  split
  . refine .bind <| .setRoomIcon (by simp [Memory.Makes, Request.op?, Request.concernsRooms]) rfl fun saved g' hicon => ?_
    have hsteady := hicon.steady ⟨rfl, rfl, fun hban => absurd hban (hnotBan _ rfl)⟩
    split
    . refine .bind <| .syncRoomRecord (by simp [Memory.Makes, hicon.req, Request.op?,
        Request.concernsRooms]) hicon.created fun synced g'' hsync _ => ?_
      have hsteady' := hsync.steady hsteady
      split
      . refine .bind <| .roomRecord fun stored => .bind <| .look fun members => ?_
        exact .bind <| .broadcastToRoom <| .pure (hsteady'.read _ stored).settled
      . exact .pure hsteady'.settled
    . exact .pure hsteady.settled
  . exact .pure ⟨rfl, rfl⟩

theorem handler (op : Op) (sid : String) (d : Json)
    : Sound (fun _ => Memory.Settled) (op.handler sid d) { req := .message sid op d } := by
  cases op with
  | identify => exact identifyPlayer sid d
  | join => exact joinGame sid d
  | leave => exact leaveGame sid d
  | send => exact sendChatMessage sid d
  | history => exact sendRoomHistory sid d
  | react => exact toggleMessageReaction sid d
  | delete => exact deleteMessage sid d
  | linkPreview => exact requestLinkPreview sid d
  | edit => exact editMessage sid d
  | roomIcon => exact uploadRoomIcon sid d
  | roomTitle => exact updateRoomTitle sid d
  | create => exact createRoom sid d
  | roomDescription => exact updateRoomDescription sid d
  | memberRole => exact setMemberRole sid d
  | ban => exact banMember sid d
  | unban => exact unbanMember sid d
  | kick => exact kickMember sid d
  | timeout => exact timeoutMember sid d
  | transfer => exact transferOwnership sid d
  | chatLock => exact setChatLock sid d
  | moderatorPermissions => exact setModeratorPermissions sid d
  | callsEnabled => exact setCallsEnabled sid d
  | unmute => exact unmuteMember sid d
  | deleteRoom => exact deleteRoomOp sid d

theorem handle (req : Request)
    : Sound (fun _ => Memory.Settled) (server.handle req) (server.start req) := by
  cases req with
  | connect sid => exact .bind <| (registerConnection sid).mono fun _ _ h => .pure h
  | disconnect sid => exact disconnectPlayer sid
  | message sid op d => exact .bind <| (handler op sid d).mono fun _ _ h => .pure h
  | httpIcon userId roomId file =>
    exact .bind <| (httpUploadRoomIcon userId roomId file).mono fun _ _ h => .pure h
  | preview n => exact .bind <| (runPreviewTask n).mono fun _ _ h => .pure h
  | clearMessages roomId username =>
    exact .bind <| .deleteUserMessagesInRoomAndBroadcast rfl fun _ _ => .pure ⟨rfl, rfl⟩
  | syncRoom roomId =>
    refine .bind <| .syncRoomRecord (by simp [Memory.Makes, server, Request.op?,
      Request.concernsRooms]) rfl fun _ _ hfollows _ => .pure ?_
    exact (hfollows.steady ⟨rfl, rfl, by simp [server, Request.op?]⟩).settled
  | setIcon roomId icon =>
    refine .bind <| .setRoomIcon (by simp [Memory.Makes, server, Request.op?,
      Request.concernsRooms]) rfl fun _ _ hfollows => .pure ?_
    exact (hfollows.steady ⟨rfl, rfl, by simp [server, Request.op?]⟩).settled

end Sound

theorem transition_of_run {adm : Memory → Env → AppState → Label → AppState → Prop}
    {p q : ServerPool} {tr : List ServerEvent}
    (h : Prog.Run server adm p tr q) (hp : p.threads = [])
    : Prog.Run server (fun g e s l s' => adm g e s l s' ∧ Transition g e s l s') p tr q :=
  (h.of_spec Sound.handle (by simp [hp])).1

end Lqxp
