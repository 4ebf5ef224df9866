import Lqxp.Websocket.Protocol.Lemmas.Records

/-!
This module contains what the steps of the handlers do to who is in which room.
-/

namespace Lqxp

@[simp]
theorem PlayerSession.mem_rooms_enter {player : PlayerSession} {roomId roomId' : String}
    : roomId ∈ (player.enter roomId').rooms ↔ roomId ∈ player.rooms ∨ roomId = roomId' := by
  unfold enter
  split
  next hmem =>
    constructor
    . exact .inl
    . rintro (h | rfl)
      . exact h
      . simpa using hmem
  next => simp

@[simp]
theorem PlayerSession.id_enter (player : PlayerSession) (roomId : String)
    : (player.enter roomId).id = player.id := by
  unfold enter
  split <;> rfl

@[simp]
theorem PlayerSession.userId_enter (player : PlayerSession) (roomId : String)
    : (player.enter roomId).userId = player.userId := by
  unfold enter
  split <;> rfl

@[simp]
theorem PlayerSession.username_enter (player : PlayerSession) (roomId : String)
    : (player.enter roomId).username = player.username := by
  unfold enter
  split <;> rfl

@[simp]
theorem PlayerSession.mem_rooms_exit {player : PlayerSession} {roomId roomId' : String}
    : roomId ∈ (player.exit roomId').rooms ↔ roomId ∈ player.rooms ∧ roomId ≠ roomId' := by
  simp [exit]

@[simp]
theorem PlayerSession.userId_exit (player : PlayerSession) (roomId : String)
    : (player.exit roomId).userId = player.userId := rfl

/--
A session of an account is in a room.
-/
def AppState.Inside (s : AppState) (sid roomId userId : String) : Prop :=
  ∃ player, s.players.lookup sid = some player ∧ player.userId = userId ∧ roomId ∈ player.rooms

variable {g : Memory} {e : Env} {s s' : AppState} {l : Label} {sid roomId userId : String}

theorem Keeps.session (h : Keeps s s') {player' : PlayerSession}
    (hplayer' : s'.players.lookup sid = some player')
    : ∃ player, s.players.lookup sid = some player ∧ player.id = player'.id
        ∧ player.userId = player'.userId ∧ player.username = player'.username
        ∧ player.rooms = player'.rooms := by
  have hmembers := h.members sid
  rw [hplayer'] at hmembers
  obtain ⟨player, hplayer, heq⟩ := Option.map_eq_some_iff.1 hmembers.symm
  simp only [Prod.mk.injEq] at heq
  exact ⟨player, hplayer, heq⟩

/--
Where a session comes from: it was there before, with the same account and all of its rooms but one that
it may just have joined, or it has just been connected or bound to another account.
-/
theorem Transition.session (h : Transition g e s l s') {player' : PlayerSession}
    (hplayer' : s'.players.lookup sid = some player')
    : (∃ player, s.players.lookup sid = some player ∧ player.id = player'.id
          ∧ player.userId = player'.userId ∧ player.username = player'.username
          ∧ ∀ roomId ∈ player'.rooms, roomId ∈ player.rooms ∨ l = .joined sid roomId player'.userId)
        ∨ (l = .connected sid ∧ player' = { id := sid })
        ∨ (l = .bound sid player'.userId
          ∧ ∃ player, s.players.lookup sid = some player ∧ player.id = player'.id
              ∧ player.rooms = player'.rooms) := by
  have hsame (hplayer : s.players.lookup sid = some player')
      : ∃ player, s.players.lookup sid = some player ∧ player.id = player'.id
          ∧ player.userId = player'.userId ∧ player.username = player'.username
          ∧ ∀ roomId ∈ player'.rooms,
              roomId ∈ player.rooms ∨ l = .joined sid roomId player'.userId :=
    ⟨player', hplayer, rfl, rfl, rfl, fun _ => .inl⟩
  have hkeeps (hkeeps : Keeps s s')
      : ∃ player, s.players.lookup sid = some player ∧ player.id = player'.id
          ∧ player.userId = player'.userId ∧ player.username = player'.username
          ∧ ∀ roomId ∈ player'.rooms,
              roomId ∈ player.rooms ∨ l = .joined sid roomId player'.userId := by
    obtain ⟨player, hplayer, hid, huser, hname, hrooms⟩ := hkeeps.session hplayer'
    exact ⟨player, hplayer, hid, huser, hname, fun roomId hroom => .inl (hrooms ▸ hroom)⟩
  cases l with
  | quiet | broadcast | file => exact .inl (hkeeps h)
  | actor => exact .inl (hkeeps h.1)
  | clock | reply | token | account | target | located | read | wrote | created | erased | changed =>
    rw [h.1] at hplayer'
    exact .inl (hsame hplayer')
  | connected sid' =>
    rw [h.1, AssocMap.lookup_insert] at hplayer'
    split at hplayer'
    next heq =>
      obtain rfl := Option.some.inj hplayer'
      exact .inr (.inl ⟨by rw [heq], by rw [heq]⟩)
    next => exact .inl (hsame hplayer')
  | disconnected sid' =>
    rw [h, AssocMap.lookup_erase] at hplayer'
    split at hplayer'
    . contradiction
    . exact .inl (hsame hplayer')
  | bound sid' userId' =>
    obtain ⟨-, -, f, hf, rfl⟩ := h
    rw [AssocMap.lookup_modify] at hplayer'
    split at hplayer'
    next heq =>
      obtain ⟨player, hplayer, rfl⟩ := Option.map_eq_some_iff.1 hplayer'
      obtain ⟨hid, huser, hrooms⟩ := hf player
      exact .inr (.inr ⟨by rw [heq, huser], player, hplayer, hid.symm, hrooms.symm⟩)
    next => exact .inl (hsame hplayer')
  | joined sid' roomId' userId' =>
    obtain ⟨rfl, ⟨joining, hjoining, hid⟩, -⟩ := h
    rw [AssocMap.lookup_modify] at hplayer'
    split at hplayer'
    next heq =>
      subst heq
      obtain ⟨player, hplayer, rfl⟩ := Option.map_eq_some_iff.1 hplayer'
      obtain rfl : joining = player := Option.some.inj (hjoining.symm.trans hplayer)
      refine .inl ⟨joining, hplayer, by simp, by simp, by simp, fun roomId hroom => ?_⟩
      rcases PlayerSession.mem_rooms_enter.1 hroom with hold | rfl
      . exact .inl hold
      . right
        rw [PlayerSession.userId_enter, hid]
    next => exact .inl (hsame hplayer')
  | left sid' roomId' =>
    obtain ⟨rfl, -⟩ := h
    rw [AssocMap.lookup_modify] at hplayer'
    split at hplayer'
    next =>
      obtain ⟨player, hplayer, rfl⟩ := Option.map_eq_some_iff.1 hplayer'
      refine .inl ⟨player, hplayer, rfl, rfl, rfl, fun roomId hroom => .inl ?_⟩
      exact (PlayerSession.mem_rooms_exit.1 hroom).1
    next => exact .inl (hsame hplayer')
  | removed userId' roomId' =>
    obtain ⟨rfl, -⟩ := h
    rw [AssocMap.lookup_mapValues] at hplayer'
    obtain ⟨player, hplayer, rfl⟩ := Option.map_eq_some_iff.1 hplayer'
    refine .inl ⟨player, hplayer, ?_⟩
    split
    next =>
      exact ⟨rfl, rfl, rfl, fun roomId hroom => .inl (PlayerSession.mem_rooms_exit.1 hroom).1⟩
    next => exact ⟨rfl, rfl, rfl, fun roomId => .inl⟩
  | emptied roomId' =>
    obtain ⟨rfl, -⟩ := h
    rw [AssocMap.lookup_mapValues] at hplayer'
    obtain ⟨player, hplayer, rfl⟩ := Option.map_eq_some_iff.1 hplayer'
    refine .inl ⟨player, hplayer, rfl, rfl, rfl, fun roomId hroom => .inl ?_⟩
    exact (PlayerSession.mem_rooms_exit.1 hroom).1

theorem Transition.inside (h : Transition g e s l s') (hinside : s'.Inside sid roomId userId)
    : s.Inside sid roomId userId ∨ l = .joined sid roomId userId
        ∨ l = .bound sid userId
          ∧ ∃ player, s.players.lookup sid = some player ∧ roomId ∈ player.rooms := by
  obtain ⟨player', hplayer', rfl, hroom⟩ := hinside
  rcases h.session hplayer' with ⟨player, hplayer, -, huser, -, hrooms⟩ | ⟨-, rfl⟩
    | ⟨hbound, player, hplayer, -, hrooms⟩
  . rcases hrooms roomId hroom with hold | hjoined
    . exact .inl ⟨player, hplayer, huser, hold⟩
    . exact .inr (.inl hjoined)
  . simp at hroom
  . exact .inr (.inr ⟨hbound, player, hplayer, hrooms ▸ hroom⟩)

theorem Transition.not_inside_left (h : Transition g e s (.left sid roomId) s')
    : ¬ s'.Inside sid roomId userId := by
  obtain ⟨rfl, -⟩ := h
  rintro ⟨player, hplayer, -, hroom⟩
  rw [AssocMap.lookup_modify_self] at hplayer
  obtain ⟨player, -, rfl⟩ := Option.map_eq_some_iff.1 hplayer
  simp at hroom

theorem Transition.not_inside_removed (h : Transition g e s (.removed userId roomId) s')
    : ¬ s'.Inside sid roomId userId := by
  obtain ⟨rfl, -⟩ := h
  rintro ⟨player, hplayer, huser, hroom⟩
  rw [AssocMap.lookup_mapValues] at hplayer
  obtain ⟨player, -, rfl⟩ := Option.map_eq_some_iff.1 hplayer
  split at huser
  next hid =>
    rw [if_pos hid] at hroom
    simp at hroom
  next hid => exact hid huser

end Lqxp
