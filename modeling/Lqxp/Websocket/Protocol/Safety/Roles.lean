import Lqxp.Websocket.Protocol.Lemmas.Records

/-!
This module contains the invariant of the role tables: every community room has one administrator, its
owner, and no more moderators and sub-administrators than there are places for them.
-/

namespace Lqxp

structure RoleTable (room : RoomRecord) : Prop where
  owner : ∃ o, room.ownerId = some o ∧ ∀ u, room.roles.lookup u = some .administrator ↔ u = o
  moderators : countRole room .moderator ≤ maxRoomModerators
  subAdmins : countRole room .subAdministrator ≤ maxRoomSubAdmins

namespace RoleTable

variable {room : RoomRecord}

theorem congr {room' : RoomRecord} (h : RoleTable room) (howner : room'.ownerId = room.ownerId)
    (hroles : room'.roles = room.roles) : RoleTable room' := by
  refine ⟨?_, ?_, ?_⟩
  . rw [howner, hroles]
    exact h.owner
  . rw [countRole, hroles]
    exact h.moderators
  . rw [countRole, hroles]
    exact h.subAdmins

theorem count_erase_le (roles : AssocMap String RoomRole) (target : String) (role : RoomRole)
    : (AssocMap.values (roles.erase target)).count role ≤ (AssocMap.values roles).count role := by
  rw [AssocMap.count_values_erase target role roles]
  omega

theorem count_insert_le {roles : AssocMap String RoomRole} {target : String} {role role' : RoomRole}
    {limit : Nat} (hle : (AssocMap.values roles).count role ≤ limit)
    (hlt : role' = role → roles.lookup target ≠ some role →
      (AssocMap.values roles).count role < limit)
    : (AssocMap.values (roles.insert target role')).count role ≤ limit := by
  have herase := AssocMap.count_values_erase target role roles
  rw [AssocMap.count_values_insert]
  by_cases hrole : role' = role
  . by_cases hlookup : roles.lookup target = some role
    . rw [if_pos hlookup] at herase
      rw [if_pos hrole]
      omega
    . have := hlt hrole hlookup
      rw [if_pos hrole]
      omega
  . rw [if_neg hrole]
    omega

theorem roleInRoom_eq_iff {target : String} {role : RoomRole} (howner : room.ownerId ≠ some target)
    (hrole : role ≠ .member) : roleInRoom room target = role ↔ room.roles.lookup target = some role := by
  rw [roleInRoom, if_neg howner]
  cases room.roles.lookup target with
  | none => simp [hrole.symm]
  | some role' => simp

theorem ownerId_ne_of_roleInRoom {target : String}
    (h : roleInRoom room target ≠ .administrator) : room.ownerId ≠ some target := by
  intro howner
  simp [roleInRoom, howner] at h

theorem setRole (h : RoleTable room) {actor target : String} {role : RoomRole}
    (hpermitted : (RoomEdit.setRole target role).Permitted actor room)
    : RoleTable ((RoomEdit.setRole target role).apply actor room) := by
  obtain ⟨-, -, -, hadmin, htarget, hmoderator, hsubAdmin⟩ := hpermitted
  obtain ⟨o, howner, hroles⟩ := h.owner
  have hnotOwner := ownerId_ne_of_roleInRoom htarget
  have hne : target ≠ o := by
    rintro rfl
    exact hnotOwner howner
  by_cases hmember : role = .member
  . refine ⟨⟨o, howner, fun u => ?_⟩, ?_, ?_⟩
    . simp only [RoomEdit.apply, if_pos hmember, AssocMap.lookup_erase]
      by_cases hu : u = target
      . simp [hu, hne]
      . rw [if_neg hu, hroles]
    . simp only [countRole, RoomEdit.apply, if_pos hmember]
      exact (count_erase_le _ _ _).trans h.moderators
    . simp only [countRole, RoomEdit.apply, if_pos hmember]
      exact (count_erase_le _ _ _).trans h.subAdmins
  . refine ⟨⟨o, howner, fun u => ?_⟩, ?_, ?_⟩
    . simp only [RoomEdit.apply, if_neg hmember, AssocMap.lookup_insert]
      by_cases hu : u = target
      . simp [hu, hne, hadmin]
      . rw [if_neg hu, hroles]
    . simp only [countRole, RoomEdit.apply, if_neg hmember]
      refine count_insert_le h.moderators fun hrole hlookup => hmoderator hrole ?_
      rwa [ne_eq, roleInRoom_eq_iff hnotOwner (by simp)]
    . simp only [countRole, RoomEdit.apply, if_neg hmember]
      refine count_insert_le h.subAdmins fun hrole hlookup => hsubAdmin hrole ?_
      rwa [ne_eq, roleInRoom_eq_iff hnotOwner (by simp)]

theorem transfer (h : RoleTable room) {actor target : String}
    (hpermitted : (RoomEdit.transfer target).Permitted actor room)
    : RoleTable ((RoomEdit.transfer target).apply actor room) := by
  obtain ⟨-, howner, hplace⟩ := hpermitted
  obtain ⟨o, howner', hroles⟩ := h.owner
  obtain rfl : actor = o := by simpa [howner] using howner'
  have hnotOwner : room.ownerId ≠ some target := by
    refine ownerId_ne_of_roleInRoom ?_
    rcases hplace with htarget | ⟨htarget, _⟩ <;> simp [htarget]
  have hne : target ≠ actor := by
    rintro rfl
    exact hnotOwner howner
  have hfree : (AssocMap.values (room.roles.insert target .administrator)).count .subAdministrator
      < maxRoomSubAdmins := by
    have herase := AssocMap.count_values_erase target .subAdministrator room.roles
    rw [AssocMap.count_values_insert, if_neg (by simp)]
    rcases hplace with htarget | ⟨_, hcount⟩
    . rw [if_pos ((roleInRoom_eq_iff hnotOwner (by simp)).1 htarget)] at herase
      have := h.subAdmins
      rw [countRole] at this
      omega
    . rw [countRole] at hcount
      omega
  refine ⟨⟨target, rfl, fun u => ?_⟩, ?_, ?_⟩
  . simp only [RoomEdit.apply, AssocMap.lookup_insert]
    by_cases hactor : u = actor
    . simp [hactor, hne.symm]
    . by_cases htarget : u = target
      . simp [htarget, hne]
      . rw [if_neg hactor, if_neg htarget, hroles]
        simp [hactor, htarget]
  . refine count_insert_le (count_insert_le h.moderators ?_) ?_ <;> simp
  . exact count_insert_le hfree.le fun _ _ => hfree

theorem apply {actor : String} {edit : RoomEdit} (h : RoleTable room)
    (hpermitted : edit.Permitted actor room) : RoleTable (edit.apply actor room) := by
  cases edit with
  | setRole target role => exact h.setRole hpermitted
  | transfer target => exact h.transfer hpermitted
  | _ => exact h.congr rfl rfl

theorem newRoom (d : Json) (roomId userId : String) : RoleTable (newRoom d roomId userId) := by
  refine ⟨⟨userId, rfl, fun u => ?_⟩, ?_, ?_⟩
  . simp only [Lqxp.newRoom, AssocMap.lookup_insert]
    by_cases hu : u = userId <;> simp [hu]
  . simp [countRole, Lqxp.newRoom, AssocMap.values]
  . simp [countRole, Lqxp.newRoom, AssocMap.values]

end RoleTable

/--
The invariant of the records: those of community rooms have a role table as it should be.
-/
def RoleTables (s : AppState) : Prop := s.All fun room => room.kind = .community → RoleTable room

theorem stable_roleTable : Stable fun room => room.kind = .community → RoleTable room where
  default roomId := by simp [defaultRecord]
  new d roomId userId := fun _ => .newRoom d roomId userId
  edit h hpermitted := fun hkind => (h (by rwa [RoomEdit.kind_apply] at hkind)).apply hpermitted
  roomId _ h := fun hkind => (h hkind).congr rfl rfl

/--
Whatever the interleaving of the handlers and whichever statements fail, the role tables stay as they
should be.
-/
theorem roleTables_of_run {adm : Memory → Env → AppState → Label → AppState → Prop}
    {p q : ServerPool} {tr : List ServerEvent}
    (h : Prog.Run server adm p tr q) (hp : p.threads = []) (htables : RoleTables p.state)
    : RoleTables q.state :=
  stable_roleTable.all_of_run h hp htables

def promotion : List (Prog.Cmd Request Env) :=
  Prog.Cmd.serve (.message "s" .create (.obj [("roomId", .str "community")])) 0 6 .calm
    ++ Prog.Cmd.serve (.message "s" .memberRole
      (.obj [("targetUserId", .str "m"), ("role", .str "moderator")])) 1 9 .calm

def promoter : PlayerSession :=
  { id := "s", userId := "o", username := "olga", rooms := ["community"] }

theorem roleTables_of_promotion
    : ∃ tr q,
        Prog.Run server (fun _ _ _ _ _ => true) (idleServer [promoter] [] []) tr q
          ∧ ((q.state.database.lookup "community").map fun room =>
              (room.kind, countRole room .moderator)) = some (.community, 1)
          ∧ RoleTables q.state := by
  obtain ⟨tr, q, hrun, htest⟩ := Prog.Run.exists_of_exec server (fun _ _ _ _ _ => true) promotion
    (idleServer [promoter] [] [])
    (fun _ q => (q.state.database.lookup "community").map (fun room =>
      (room.kind, countRole room .moderator)) = some (.community, 1))
    (by decide +kernel)
  refine ⟨tr, q, hrun, by simpa using htest, roleTables_of_run hrun rfl ?_⟩
  intro roomId room hroom
  simp [idleServer] at hroom

end Lqxp
