import Lqxp.Websocket.Protocol.Lemmas.Server

/-!
This module contains what the steps of the handlers do to the stored records: which of them change a
record, and the rule for properties that every edit keeps.
-/

namespace Lqxp

def Label.stores : Label → Option String
  | .wrote roomId _ | .created roomId _ | .erased roomId => some roomId
  | _ => none

variable {g : Memory} {e : Env} {s s' : AppState} {l : Label}

theorem Transition.lookup_database (h : Transition g e s l s') {roomId : String}
    (hstores : l.stores ≠ some roomId)
    : s'.database.lookup roomId = s.database.lookup roomId := by
  cases l with
  | quiet | broadcast | file => rw [h.database]
  | actor => rw [h.1.database]
  | clock | reply | token | account | target | located | connected | joined | left | removed | emptied
  | read => rw [h.1]
  | changed =>
    rw [h.1]
    rfl
  | disconnected => rw [h]
  | bound sid userId =>
    obtain ⟨-, -, f, -, rfl⟩ := h
    rfl
  | wrote roomId' record =>
    rw [h.1]
    exact AList.lookup_insert_ne fun heq => hstores (congrArg some heq.symm)
  | created roomId' record =>
    rw [h.1]
    exact AList.lookup_insert_ne fun heq => hstores (congrArg some heq.symm)
  | erased roomId' =>
    rw [h.1]
    exact AList.lookup_erase_ne fun heq => hstores (congrArg some heq.symm)

def erases (roomId : String) : ServerEvent → Bool
  | .act _ _ _ (.erased roomId') => roomId' = roomId
  | _ => false

/--
A room has a stored record with the property `K`.
-/
def Stored (K : RoomRecord → Prop) (roomId : String) (s : AppState) : Prop :=
  ∃ room, s.database.lookup roomId = some room ∧ K room

instance (K : RoomRecord → Prop) [DecidablePred K] (roomId : String) (s : AppState)
    : Decidable (Stored K roomId s) :=
  decidable_of_iff ((s.database.lookup roomId).any fun room => K room)
    (by simp [Stored, Option.any_eq_true])

theorem Transition.stored {K : RoomRecord → Prop} {roomId : String} (h : Transition g e s l s')
    (hstored : Stored K roomId s) (hwrote : ∀ record, l = .wrote roomId record → K record)
    (herased : l ≠ .erased roomId) : Stored K roomId s' := by
  obtain ⟨room, hroom, hK⟩ := hstored
  by_cases hstores : l.stores = some roomId
  . cases l with
    | wrote roomId' record =>
      obtain rfl : roomId' = roomId := by simpa [Label.stores] using hstores
      exact ⟨record, by simp [h.1], hwrote record rfl⟩
    | created roomId' record =>
      obtain rfl : roomId' = roomId := by simpa [Label.stores] using hstores
      rw [h.2.1] at hroom
      contradiction
    | erased roomId' =>
      obtain rfl : roomId' = roomId := by simpa [Label.stores] using hstores
      exact absurd rfl herased
    | _ => simp [Label.stores] at hstores
  . exact ⟨room, by rw [h.lookup_database hstores, hroom], hK⟩

theorem RoomEdit.kind_apply (edit : RoomEdit) (actor : String) (room : RoomRecord)
    : (edit.apply actor room).kind = room.kind := by
  cases edit <;> rfl

/--
A property of records that new records have and every permitted edit keeps.
-/
structure Stable (K : RoomRecord → Prop) : Prop where
  default (roomId : String) : K (defaultRecord roomId)
  new (d : Json) (roomId userId : String) : K (newRoom d roomId userId)
  edit {edit : RoomEdit} {actor : String} {room : RoomRecord}
    : K room → edit.Permitted actor room → K (edit.apply actor room)
  roomId {room : RoomRecord} (roomId : String) : K room → K { room with roomId }

def AppState.All (K : RoomRecord → Prop) (s : AppState) : Prop :=
  ∀ roomId room, s.database.lookup roomId = some room → K room

def Memory.All (K : RoomRecord → Prop) (g : Memory) : Prop :=
  ∀ roomId room, g.base = some (roomId, some room) → K room

namespace Stable

variable {K : RoomRecord → Prop}

theorem wrote (hK : Stable K) {roomId : String} {record : RoomRecord}
    (h : Transition g e s (.wrote roomId record) s') (hg : g.All K) : K record := by
  obtain ⟨-, snapshot, edit, hbase, -, hpermitted, rfl⟩ := h
  refine hK.roomId roomId (hK.edit ?_ hpermitted)
  cases snapshot with
  | none => exact hK.default roomId
  | some room => exact hg roomId room hbase

theorem created (hK : Stable K) {roomId : String} {record : RoomRecord}
    (h : Transition g e s (.created roomId record) s') : K record := by
  obtain ⟨-, -, sid, d, -, rfl⟩ := h
  exact hK.new d roomId g.actorId

theorem all_step (hK : Stable K) (h : Transition g e s l s') (hs : s.All K) (hg : g.All K)
    : s'.All K := by
  intro roomId room hroom
  by_cases hstores : l.stores = some roomId
  . cases l with
    | wrote roomId' record =>
      obtain rfl : roomId' = roomId := by simpa [Label.stores] using hstores
      obtain rfl : record = room := by simpa [h.1] using hroom
      exact hK.wrote h hg
    | created roomId' record =>
      obtain rfl : roomId' = roomId := by simpa [Label.stores] using hstores
      obtain rfl : record = room := by simpa [h.1] using hroom
      exact hK.created h
    | erased roomId' =>
      obtain rfl : roomId' = roomId := by simpa [Label.stores] using hstores
      rw [h.1, AList.lookup_erase] at hroom
      contradiction
    | _ => simp [Label.stores] at hstores
  . rw [h.lookup_database hstores] at hroom
    exact hs roomId room hroom

theorem memory_step (hK : Stable K) (h : Transition g e s l s') (hs : s.All K) (hg : g.All K)
    : (g.next l).All K := by
  intro roomId room hbase
  cases l with
  | read roomId' result =>
    obtain ⟨-, hresult⟩ := h
    simp only [Memory.next] at hbase
    split at hbase
    . exact hg roomId room hbase
    . obtain ⟨rfl, rfl⟩ : roomId' = roomId ∧ result = some room := by simpa using hbase
      refine hs roomId' room ?_
      unfold Env.readRoom at hresult
      split at hresult
      . contradiction
      . exact hresult.symm
  | wrote roomId' record =>
    rw [Memory.next_wrote_base] at hbase
    obtain ⟨rfl, rfl⟩ : roomId' = roomId ∧ record = room := by simpa using hbase
    exact hK.wrote h hg
  | created roomId' record =>
    obtain ⟨rfl, rfl⟩ : roomId' = roomId ∧ record = room := by simpa [Memory.next] using hbase
    exact hK.created h
  | erased roomId' => simp [Memory.next] at hbase
  | _ => exact hg roomId room hbase

theorem all_of_run (hK : Stable K) {adm : Memory → Env → AppState → Label → AppState → Prop}
    {p q : ServerPool} {tr : List ServerEvent}
    (h : Prog.Run server adm p tr q) (hp : p.threads = []) (hs : p.state.All K)
    : q.state.All K := by
  have hstart (req : Request) : (server.start req).All K := by
    intro roomId room hbase
    simp [server] at hbase
  refine ((transition_of_run h hp).invariant (·.All K) (·.All K) hstart ?_ hs (by simp [hp])).1
  intro g e s l s' hstep hs hg
  exact ⟨hK.all_step hstep.2 hs hg, hK.memory_step hstep.2 hs hg⟩

end Stable

end Lqxp
