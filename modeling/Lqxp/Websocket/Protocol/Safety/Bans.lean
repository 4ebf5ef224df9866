import Lqxp.Websocket.Protocol.Lemmas.Records

/-!
This module contains what becomes of a ban once it has been confirmed: it can be lost to a handler that
had read the record before and writes it back later, and only to such a handler.
-/

namespace Lqxp

/--
The stored record of a room has an account among the banned.
-/
abbrev Banned (s : AppState) (roomId target : String) : Prop :=
  Stored (fun room => (room.banned.lookup target).isSome) roomId s

/--
Once a ban has been confirmed, the account stays banned as long as no unban of it is started and the
room is not deleted.
-/
def NoLostBan : Prop :=
  ∀ (p q : ServerPool) (pre post : List ServerEvent) i g e sid payload roomId target,
    p.threads = [] →
    Prog.Run server (fun _ _ _ _ _ => True) p (pre ++ .act i g e (.reply sid payload) :: post) q →
    g.req.op? = some .ban → g.target = some target → isOkFor 43 roomId payload →
    (∀ j sid' d, .start j (.message sid' .unban d) ∈ post →
      ∀ g' e', .act j g' e' (.target target) ∉ post) →
    (∀ j g' e', .act j g' e' (.erased roomId) ∉ pre ++ post) →
    Banned q.state roomId target

/--
A step does not undo a ban: it does not delete the room, and if it writes the record of the room, it
adds the ban itself or works on a record that has it, without an unban.
-/
def Memory.keepsBan (g : Memory) (roomId target : String) : Label → Bool
  | .wrote roomId' _ =>
    roomId' ≠ roomId
      || (g.req.op? = some .ban && g.target = some target && g.banned = none)
      || (g.base.any fun x => x.2.any fun room => (room.banned.lookup target).isSome)
        && !(g.req.op? = some .unban && g.target = some target)
  | .erased roomId' => roomId' ≠ roomId
  | _ => true

def keepsBan (roomId target : String) : ServerEvent → Bool
  | .act _ g _ l => g.keepsBan roomId target l
  | .start .. => true

/--
Run number `i` writes a record in which the account is banned.
-/
def writesBan (i : Nat) (roomId target : String) : ServerEvent → Bool
  | .act j _ _ (.wrote roomId' record) =>
    j = i && roomId' = roomId && (record.banned.lookup target).isSome
  | _ => false

/--
Every step after run number `i` has written its ban keeps the ban.
-/
def BanKept (i : Nat) (roomId target : String) (tr : List ServerEvent) : Prop :=
  tr.Pairwise fun ev ev' => writesBan i roomId target ev → keepsBan roomId target ev'

instance (i : Nat) (roomId target : String) (tr : List ServerEvent)
    : Decidable (BanKept i roomId target tr) :=
  inferInstanceAs (Decidable (tr.Pairwise _))

variable {g : Memory} {e : Env} {s s' : AppState} {l : Label} {roomId target : String}

theorem RoomEdit.banned_apply {edit : RoomEdit} {room : RoomRecord} (actor : String)
    (hbanned : (room.banned.lookup target).isSome) (hedit : edit ≠ .unban target)
    : ((edit.apply actor room).banned.lookup target).isSome := by
  cases edit with
  | ban target' name =>
    simp only [apply, AssocMap.lookup_insert]
    split
    . rfl
    . exact hbanned
  | unban target' =>
    have hne : target ≠ target' := by
      rintro rfl
      exact hedit rfl
    simpa only [apply, AssocMap.lookup_erase, if_neg hne] using hbanned
  | _ => exact hbanned

theorem Memory.Makes.ban {edit : RoomEdit} (h : g.Makes edit) (hop : g.req.op? = some .ban)
    (htarget : g.target = some target) (hbanned : g.banned = none)
    : ∃ name, edit = .ban target name := by
  cases edit with
  | ban target' name =>
    obtain rfl : target = target' := by simpa [htarget] using h.2.1
    exact ⟨name, rfl⟩
  | refresh => simpa [hbanned] using h.2.2 hop
  | setIcon => exact absurd hop h.2.2
  | setRole | transfer | unban | timeout | unmute => simpa [hop] using h.1
  | setTitle | setDescription | setChatLock | setModeratorPermissions | setCallsEnabled =>
    simp [Memory.Makes, hop] at h

theorem banned_step (h : Transition g e s l s') (hkeeps : g.keepsBan roomId target l)
    (hbanned : Banned s roomId target) : Banned s' roomId target := by
  refine h.stored hbanned ?_ ?_
  . rintro record rfl
    obtain ⟨-, snapshot, edit, hbase, hmakes, -, rfl⟩ := h
    simp only [Memory.keepsBan, hbase, ne_eq, not_true_eq_false, decide_false, Bool.false_or,
      Bool.or_eq_true, Bool.and_eq_true, decide_eq_true_eq] at hkeeps
    rcases hkeeps with ⟨⟨hop, htarget⟩, hnone⟩ | ⟨hany, hnotUnban⟩
    . obtain ⟨name, rfl⟩ := hmakes.ban hop htarget hnone
      simp [RoomEdit.apply]
    . obtain ⟨room, rfl, hroom⟩ : ∃ room, snapshot = some room
          ∧ (room.banned.lookup target).isSome := by
        simpa [Option.any_eq_true] using hany
      refine RoomEdit.banned_apply g.actorId hroom ?_
      rintro rfl
      simp [hmakes.1, hmakes.2] at hnotUnban
  . rintro rfl
    simp [Memory.keepsBan] at hkeeps

/--
The memory of a run that bans knows its target and the room in which it has banned it.
-/
def Memory.HasBanned (g : Memory) (roomId target : String) : Prop :=
  g.req.op? = some .ban ∧ g.target = some target ∧ g.banned = some roomId

theorem Memory.HasBanned.of_next (hbefore : ¬ g.HasBanned roomId target)
    (hafter : (g.next l).HasBanned roomId target)
    : ∃ record, l = .wrote roomId record ∧ (record.banned.lookup target).isSome := by
  obtain ⟨hop, htarget, hbanned⟩ := hafter
  rw [Memory.next_req] at hop
  cases l with
  | target userId => simp [Memory.next] at hbanned
  | wrote roomId' record =>
    simp only [Memory.next] at htarget hbanned
    split at htarget
    next target' htarget' =>
      obtain rfl : roomId' = roomId := by simpa [htarget'] using hbanned
      have hbans := htarget'
      simp only [Memory.bansTarget, if_pos hop, Option.filter_eq_some_iff] at hbans
      obtain ⟨heq, hrecord⟩ := hbans
      obtain rfl : target' = target := by simpa [heq] using htarget
      exact ⟨record, rfl, hrecord⟩
    next hnone =>
      simp only [hnone] at hbanned
      exact absurd ⟨hop, htarget, hbanned⟩ hbefore
  | _ => exact absurd ⟨hop, htarget, hbanned⟩ hbefore

/--
A confirmed ban stands as long as all steps after it keep it.
-/
theorem banned_of_run {adm : Memory → Env → AppState → Label → AppState → Prop} {p q : ServerPool}
    {pre post : List ServerEvent} {i : Nat} {sid : String} {payload : Json}
    (hrun : Prog.Run server adm p (pre ++ .act i g e (.reply sid payload) :: post) q)
    (hp : p.threads = []) (hop : g.req.op? = some .ban) (htarget : g.target = some target)
    (hok : isOkFor 43 roomId payload)
    (hkept : BanKept i roomId target (pre ++ .act i g e (.reply sid payload) :: post))
    : Banned q.state roomId target := by
  have hsound := transition_of_run hrun hp
  obtain ⟨r, r', hbefore, hreply, -⟩ := hsound.split_at
  obtain ⟨⟨-, -, hconfirms⟩, prog, hthread, -⟩ := hreply.of_act
  -- The confirmation comes from a run that remembers its ban, so it has written it before.
  have hbanned : g.HasBanned roomId target := ⟨hop, htarget, hconfirms.ban roomId hop hok⟩
  have hnotStart (req : Request) : ¬ (server.start req).HasBanned roomId target := by
    simp [Memory.HasBanned, server]
  obtain ⟨pre', g', e', l, post', rfl, hnot, hnext⟩ :=
    hbefore.exists_act (·.HasBanned roomId target) hnotStart hp hthread hbanned
  obtain ⟨record, rfl, hrecord⟩ := Memory.HasBanned.of_next hnot hnext
  -- From that write on every step keeps the ban.
  rw [List.append_assoc, List.cons_append] at hsound
  rw [BanKept, List.append_assoc, List.cons_append] at hkept
  have hkept' := (List.pairwise_cons.1 (List.pairwise_append.1 hkept).2.1).1
  obtain ⟨r₁, r₂, -, hwrite, hrest⟩ := hsound.split_at
  obtain ⟨⟨-, hstate, -⟩, -⟩ := hwrite.of_act
  have hstart : Banned r₂.state roomId target := ⟨record, by simp [hstate], hrecord⟩
  have hrestricted := hrest.restrict (fun g _ l => g.keepsBan roomId target l) fun j g e l hmem =>
    hkept' (.act j g e l) hmem (by simpa [writesBan] using hrecord)
  refine hrestricted.state_invariant (Banned · roomId target) ?_ hstart
  intro g e s l s' hstep hbanned
  exact banned_step hstep.1.2 hstep.2 hbanned

section Race

/--
An owner with two sessions in its community room.
-/
def raceServer : ServerPool :=
  idleServer
    [{ id := "a", userId := "o", username := "olga", rooms := ["community"] },
      { id := "b", userId := "o", username := "olga", rooms := ["community"] }]
    [{ roomId := "community", kind := .community, ownerId := some "o",
       roles := (∅ : AssocMap String RoomRole).insert "o" .administrator }]
    []

/--
One session starts to change the description, the other one bans an account meanwhile.
-/
def descriptionRace : List (Prog.Cmd Request Env) :=
  Prog.Cmd.serve (.message "a" .roomDescription (.obj [("description", .str "hello")])) 0 4 .calm
    ++ Prog.Cmd.serve (.message "b" .ban (.obj [("targetUserId", .str "t")])) 1 15 .calm

def confirmsBan (i : Nat) (roomId target : String) : ServerEvent → Bool
  | .act j g _ (.reply _ payload) =>
    j = i && g.req.op? = some .ban && g.target = some target && isOkFor 43 roomId payload
  | _ => false

theorem exists_of_confirmsBan {i : Nat} {ev : ServerEvent} (h : confirmsBan i roomId target ev)
    : ∃ g e sid payload,
        ev = .act i g e (.reply sid payload) ∧ g.req.op? = some .ban ∧ g.target = some target
          ∧ isOkFor 43 roomId payload := by
  unfold confirmsBan at h
  split at h
  next j g e sid payload =>
    simp only [Bool.and_eq_true, decide_eq_true_eq] at h
    obtain ⟨⟨⟨rfl, hop⟩, htarget⟩, hok⟩ := h
    exact ⟨g, e, sid, payload, rfl, hop, htarget, hok⟩
  next => contradiction

def starts : ServerEvent → Bool
  | .start .. => true
  | .act .. => false

/--
Up to the write of the description the ban stands.
-/
theorem banned_of_descriptionRace
    : ∃ pre i g e sid payload post q,
        Prog.Run server (fun _ _ _ _ _ => True) raceServer
            (pre ++ .act i g e (.reply sid payload) :: post) q
          ∧ isOkFor 43 "community" payload
          ∧ Banned q.state "community" "t" := by
  obtain ⟨pre, ev, post, q, hrun, htest⟩ := Prog.Run.exists_at_of_exec server descriptionRace
    raceServer 20
    (fun pre ev post _ => confirmsBan 1 "community" "t" ev
      && BanKept 1 "community" "t" (pre ++ ev :: post))
    (by decide +kernel)
  simp only [Bool.and_eq_true, decide_eq_true_eq] at htest
  obtain ⟨hconfirms, hkept⟩ := htest
  obtain ⟨g, e, sid, payload, rfl, hop, htarget, hok⟩ := exists_of_confirmsBan hconfirms
  exact ⟨pre, 1, g, e, sid, payload, post, q, hrun, hok, banned_of_run hrun rfl hop htarget hok hkept⟩

theorem not_noLostBan : ¬ NoLostBan := by
  intro h
  obtain ⟨pre, ev, post, q, hrun, htest⟩ := Prog.Run.exists_at_of_exec server
    (descriptionRace ++ [.act 0 .calm]) raceServer 20
    (fun pre ev post q => confirmsBan 1 "community" "t" ev && !post.any starts
      && !(pre ++ post).any (erases "community") && !Banned q.state "community" "t")
    (by decide +kernel)
  simp only [Bool.and_eq_true, Bool.not_eq_true', List.any_eq_false, decide_eq_false_iff_not]
    at htest
  obtain ⟨⟨⟨hconfirms, hstarts⟩, herases⟩, hbanned⟩ := htest
  obtain ⟨g, e, sid, payload, rfl, hop, htarget, hok⟩ := exists_of_confirmsBan hconfirms
  refine hbanned (h _ q pre post 1 g e sid payload _ _ rfl hrun hop htarget hok ?_ ?_)
  . intro j sid' d hmem
    exact absurd rfl (hstarts _ hmem)
  . intro j g' e' hmem
    exact herases _ hmem (by simp [erases])

end Race

end Lqxp
