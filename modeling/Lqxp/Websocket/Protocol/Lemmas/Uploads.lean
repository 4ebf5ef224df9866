import Lqxp.Prog.Trace
import Lqxp.Services.User.Upload

/-!
This module contains what uninterrupted runs of the uploads do to the upload directory and to the tables.
-/

namespace Lqxp

def Label.fileChange : Label → Option FileChange
  | .file change => some change
  | _ => none

/--
The changes that a run makes to the upload directory.
-/
def fileChanges (tr : List (Env × Label)) : List FileChange := tr.filterMap fun x => x.2.fileChange

@[simp]
theorem fileChanges_append (tr tr' : List (Env × Label))
    : fileChanges (tr ++ tr') = fileChanges tr ++ fileChanges tr' :=
  List.filterMap_append

/--
The run has written the record of the room.
-/
def HasWritten (roomId : String) (tr : List (Env × Label)) : Prop := ∃ e record, (e, .wrote roomId record) ∈ tr

theorem hasWritten_append {roomId : String} {tr tr' : List (Env × Label)}
    : HasWritten roomId (tr ++ tr') ↔ HasWritten roomId tr ∨ HasWritten roomId tr' := by
  simp only [HasWritten, List.mem_append, exists_or]

def Label.aside : Label → Bool
  | .wrote .. | .file _ => false
  | _ => true

/--
The tables and the upload directory are the same.
-/
structure SameFiles (s s' : AppState) : Prop where
  database : s'.database = s.database
  accounts : s'.accounts = s.accounts
  uploads : s'.uploads = s.uploads

theorem SameFiles.refl (s : AppState) : SameFiles s s := ⟨rfl, rfl, rfl⟩

theorem SameFiles.trans {s s' s'' : AppState} (h : SameFiles s s') (h' : SameFiles s' s'') : SameFiles s s'' :=
  ⟨h'.database.trans h.database, h'.accounts.trans h.accounts, h'.uploads.trans h.uploads⟩

/--
A piece of a handler that leaves the tables and the upload directory alone.
-/
abbrev Aside (p : Proto α) : Prop :=
  Prog.Spec (fun (_ : Unit) _ => ()) (fun _ _ s l s' => l.aside ∧ SameFiles s s') (fun _ _ => True) p ()

namespace Aside

theorem pure (a : α) : Aside (pure a) := trivial

theorem bind {p : Proto α} {f : α → Proto β} (hp : Aside p) (hf : ∀ a, Aside (f a)) : Aside (p >>= f) :=
  Prog.Spec.bind_iff.2 (hp.mono fun a _ _ => hf a)

theorem atom {f : Env → AppState → α × Label × AppState}
    (h : ∀ e s, (f e s).2.1.aside ∧ SameFiles s (f e s).2.2) : Aside (.atom f) :=
  Prog.Spec.atom_iff.2 fun e s => ⟨h e s, trivial⟩

theorem look (f : Env → AppState → α) : Aside (look f) := .atom fun _ s => ⟨rfl, .refl s⟩

theorem hitRateLimit (key : String) (limit windowMs : Nat) : Aside (hitRateLimit key limit windowMs) :=
  .atom fun _ _ => ⟨rfl, rfl, rfl, rfl⟩

theorem getPlayer (sid : String) : Aside (getPlayer sid) := by
  refine .atom fun e s => ?_
  split
  . exact ⟨rfl, .refl s⟩
  . exact ⟨rfl, .refl s⟩

theorem respondToSender (sid : String) (payload : Json) : Aside (respondToSender sid payload) := by
  refine .atom fun e s => ?_
  split
  . exact ⟨rfl, .refl s⟩
  . exact ⟨rfl, .refl s⟩

theorem respondError (sid : String) (op : Nat) (text : String) (reqId : Option String)
    : Aside (respondError sid op text reqId) :=
  .bind (.respondToSender _ _) fun _ => .pure _

theorem respondOk (sid : String) (op : Nat) (d : List (String × Json)) (reqId : Option String)
    : Aside (respondOk sid op d reqId) :=
  .bind (.respondToSender _ _) fun _ => .pure _

theorem broadcastToRoom (gameId : String) (payload : Json) : Aside (broadcastToRoom gameId payload) :=
  .atom fun _ s => ⟨rfl, .refl s⟩

theorem roomRecord (roomId : String) : Aside (roomRecord roomId) := .atom fun _ s => ⟨rfl, .refl s⟩

theorem broadcastProfileUpdate (profile : UserProfile) (players : List PlayerSession)
    : Aside (broadcastProfileUpdate profile players) := by
  have hrooms (player : PlayerSession) (rooms : List String) : Aside (broadcastProfileIn player profile rooms) := by
    induction rooms with
    | nil => exact .pure _
    | cons gameId rooms ih => exact .bind (.bind (.look _) fun _ => .broadcastToRoom _ _) fun _ => ih
  induction players with
  | nil => exact .pure _
  | cons player players ih => exact .bind (hrooms _ _) fun _ => ih

end Aside

section Runs

variable {s s' : AppState} {tr : List (Env × Label)}

theorem Aside.trace {p : Proto α} {a : α} (hp : Aside p) (h : Prog.Trace p s tr a s')
    : SameFiles s s' ∧ fileChanges tr = [] ∧ ∀ roomId, ¬ HasWritten roomId tr := by
  induction h with
  | done a s => exact ⟨.refl s, rfl, fun roomId ⟨e, record, hmem⟩ => nomatch hmem⟩
  | @step act rest s s' tr a e run ih =>
    obtain ⟨⟨hlabel, hsame⟩, hrest⟩ := hp e s
    obtain ⟨hsame', hfiles, hwritten⟩ := ih hrest
    refine ⟨hsame.trans hsame', ?_, fun roomId ⟨e', record, hmem⟩ => ?_⟩
    . generalize (act e s).1 = l at hlabel
      cases l with
      | file => contradiction
      | _ => exact hfiles
    . rcases List.mem_cons.1 hmem with heq | hmem
      . rw [← (Prod.mk.inj heq).2] at hlabel
        contradiction
      . exact hwritten roomId ⟨e', record, hmem⟩

end Runs

section Icons

variable {s s' s₁ : AppState} {tr tr₁ tr₂ : List (Env × Label)} {roomId : String}

/--
What the upload of an icon of a room does: it removes at most the file of the icon there was, stores at most the
file of the new one, and writes at most records with this one or with none.
-/
structure ReplacesIcon (roomId : String) (s : AppState) (tr : List (Env × Label)) (s' : AppState) : Prop where
  uploads (id : String)
    : id ∈ s'.uploads ↔ (id ∈ s.uploads ∧ .removed id ∉ fileChanges tr) ∨ .stored id ∈ fileChanges tr
  removed (id : String) : .removed id ∈ fileChanges tr →
    ∃ record icon, s.database.lookup roomId = some record ∧ record.icon = some icon ∧ icon.file.id = id
  record : ¬ HasWritten roomId tr → s'.database.lookup roomId = s.database.lookup roomId
  written (record : RoomRecord) (icon : RoomIcon) : HasWritten roomId tr →
    s'.database.lookup roomId = some record → record.icon = some icon → .stored icon.file.id ∈ fileChanges tr

theorem ReplacesIcon.of_aside {p : Proto α} {a : α} (hp : Aside p) (h : Prog.Trace p s tr a s')
    : ReplacesIcon roomId s tr s' := by
  obtain ⟨hsame, hfiles, hwritten⟩ := hp.trace h
  refine ⟨fun id => ?_, fun id hid => ?_, fun _ => by rw [hsame.database], fun _ _ h => absurd h (hwritten roomId)⟩
  . rw [hsame.uploads, hfiles]
    simp
  . rw [hfiles] at hid
    contradiction

theorem ReplacesIcon.after_aside {p : Proto α} {a : α} (hp : Aside p) (h : Prog.Trace p s tr₁ a s₁)
    (h' : ReplacesIcon roomId s₁ tr₂ s') : ReplacesIcon roomId s (tr₁ ++ tr₂) s' := by
  obtain ⟨hsame, hfiles, hwritten⟩ := hp.trace h
  have hfiles' : fileChanges (tr₁ ++ tr₂) = fileChanges tr₂ := by rw [fileChanges_append, hfiles, List.nil_append]
  have hwritten' : HasWritten roomId (tr₁ ++ tr₂) ↔ HasWritten roomId tr₂ := by
    rw [hasWritten_append, or_iff_right (hwritten roomId)]
  refine ⟨fun id => ?_, fun id hid => ?_, fun hnot => ?_, fun record icon hhas => ?_⟩
  . rw [hfiles', ← hsame.uploads]
    exact h'.uploads id
  . rw [hfiles'] at hid
    rw [← hsame.database]
    exact h'.removed id hid
  . rw [← hsame.database]
    exact h'.record (mt hwritten'.2 hnot)
  . rw [hfiles']
    exact h'.written record icon (hwritten'.1 hhas)

/--
A file is removed from the upload directory, or none.
-/
structure Unlinks (previous : Option String) (s : AppState) (tr : List (Env × Label)) (s' : AppState) : Prop where
  uploads (id : String) : id ∈ s'.uploads ↔ id ∈ s.uploads ∧ .removed id ∉ fileChanges tr
  database : s'.database = s.database
  removed (id : String) : .removed id ∈ fileChanges tr → previous = some id
  stored (id : String) : .stored id ∉ fileChanges tr
  written (roomId : String) : ¬ HasWritten roomId tr

theorem Unlinks.of_nothing (previous : Option String) (s : AppState) : Unlinks previous s [] s :=
  ⟨by simp [fileChanges], rfl, by simp [fileChanges], by simp [fileChanges], by simp [HasWritten]⟩

theorem trace_removeUploadedFile {fileId : String} {u : Unit} (h : Prog.Trace (removeUploadedFile fileId) s tr u s')
    : Unlinks (some fileId) s tr s' ∧ s'.accounts = s.accounts := by
  obtain ⟨e, rfl, -, rfl⟩ := Prog.trace_atom_iff.1 h
  split
  . refine ⟨⟨?_, rfl, ?_, ?_, ?_⟩, rfl⟩
    . simp [fileChanges, Label.fileChange]
    . simp [fileChanges, Label.fileChange]
    . simp [fileChanges, Label.fileChange]
    . simp [HasWritten]
  . refine ⟨⟨?_, rfl, ?_, ?_, ?_⟩, rfl⟩
    . simp [fileChanges, Label.fileChange]
    . simp [fileChanges, Label.fileChange, eq_comm]
    . simp [fileChanges, Label.fileChange]
    . simp [HasWritten]

theorem trace_removeIconFile {previous : Option RoomIcon} {u : Unit}
    (h : Prog.Trace (removeIconFile previous) s tr u s') : Unlinks (previous.map (·.file.id)) s tr s' := by
  cases previous with
  | none =>
    obtain ⟨rfl, -, rfl⟩ := Prog.trace_done_iff.1 h
    exact .of_nothing _ _
  | some icon => exact (trace_removeUploadedFile h).1

/--
A file is stored, or the storing fails.
-/
structure Uploads (stored : Option StoredFile) (s : AppState) (tr : List (Env × Label)) (s' : AppState) : Prop where
  uploads (id : String) : id ∈ s'.uploads ↔ id ∈ s.uploads ∨ .stored id ∈ fileChanges tr
  database : s'.database = s.database
  stored (file : StoredFile) : stored = some file → .stored file.id ∈ fileChanges tr
  removed (id : String) : .removed id ∉ fileChanges tr
  written (roomId : String) : ¬ HasWritten roomId tr

theorem mem_insertUpload {uploads : List String} {fileId id : String}
    : id ∈ (if uploads.contains fileId then uploads else uploads ++ [fileId]) ↔ id ∈ uploads ∨ id = fileId := by
  split
  next hcontains =>
    have hmem := List.contains_iff_mem.1 hcontains
    exact ⟨.inl, fun h => h.elim (fun hold => hold) fun heq => heq ▸ hmem⟩
  next => rw [List.mem_append, List.mem_singleton]

theorem trace_storeUploadedBytes {extension mimeType : String} {bytes : List UInt8} {stored : Option StoredFile}
    (h : Prog.Trace (storeUploadedBytes extension bytes mimeType) s tr stored s')
    : ∃ e, (stored = none ∧ tr = [(e, .quiet)] ∧ s' = s)
        ∨ ∃ file, stored = some file ∧ tr = [(e, .file (.stored file.id))]
          ∧ s' = { s with uploads := if s.uploads.contains file.id then s.uploads else s.uploads ++ [file.id] } := by
  obtain ⟨e, rfl, rfl, rfl⟩ := Prog.trace_atom_iff.1 h
  refine ⟨e, ?_⟩
  split
  . exact .inl ⟨rfl, rfl, rfl⟩
  . exact .inr ⟨_, rfl, rfl, rfl⟩

theorem uploads_storeUploadedBytes {extension mimeType : String} {bytes : List UInt8} {stored : Option StoredFile}
    (h : Prog.Trace (storeUploadedBytes extension bytes mimeType) s tr stored s') : Uploads stored s tr s' := by
  obtain ⟨e, ⟨rfl, rfl, rfl⟩ | ⟨file, rfl, rfl, rfl⟩⟩ := trace_storeUploadedBytes h
  . refine ⟨?_, rfl, ?_, ?_, ?_⟩
    . simp [fileChanges, Label.fileChange]
    . simp
    . simp [fileChanges, Label.fileChange]
    . simp [HasWritten]
  . refine ⟨fun id => ?_, rfl, ?_, ?_, ?_⟩
    . refine mem_insertUpload.trans (or_congr_right ?_)
      show _ ↔ FileChange.stored id ∈ [FileChange.stored _]
      rw [List.mem_singleton, FileChange.stored.injEq]
    . rintro file ⟨rfl⟩
      simp [fileChanges, Label.fileChange]
    . simp [fileChanges, Label.fileChange]
    . simp [HasWritten]

theorem trace_roomIcon {previous : Option RoomIcon} (h : Prog.Trace (roomIcon roomId) s tr previous s')
    : ∀ icon, previous = some icon → ∃ record, s.database.lookup roomId = some record ∧ record.icon = some icon := by
  obtain ⟨room, s₁, tr₁, tr₂, hroom, hdone, rfl⟩ := Prog.trace_bind_iff.1 h
  obtain ⟨rfl, rfl, rfl⟩ := Prog.trace_done_iff.1 hdone
  obtain ⟨e, rfl, rfl, rfl⟩ := Prog.trace_atom_iff.1 hroom
  intro icon hicon
  obtain ⟨record, hrecord, hicon⟩ := Option.bind_eq_some_iff.1 hicon
  rw [Env.readRoom] at hrecord
  split at hrecord
  . contradiction
  . exact ⟨record, hrecord, hicon⟩

theorem ReplacesIcon.of_unlinks {previous : Option RoomIcon} {stored : Option StoredFile}
    (hprevious : ∀ icon, previous = some icon →
      ∃ record, s.database.lookup roomId = some record ∧ record.icon = some icon)
    (h : Unlinks (previous.map (·.file.id)) s tr₁ s₁) (h' : Uploads stored s₁ tr₂ s')
    : ReplacesIcon roomId s (tr₁ ++ tr₂) s' := by
  refine ⟨fun id => ?_, fun id hid => ?_, fun _ => ?_, fun record icon hwritten => ?_⟩
  . simp [h'.uploads, h.uploads, h'.removed, h.stored]
  . rw [fileChanges_append, List.mem_append, or_iff_left (h'.removed id)] at hid
    obtain ⟨icon, hicon, rfl⟩ := Option.map_eq_some_iff.1 (h.removed id hid)
    obtain ⟨record, hrecord, hrecordIcon⟩ := hprevious icon hicon
    exact ⟨record, icon, hrecord, hrecordIcon, rfl⟩
  . rw [h'.database, h.database]
  . rw [hasWritten_append] at hwritten
    exact absurd hwritten (not_or.2 ⟨h.written roomId, h'.written roomId⟩)

/--
The record of the room has this icon or none.
-/
def AppState.HoldsIcon (s : AppState) (roomId : String) (icon : RoomIcon) : Prop :=
  ∀ record, s.database.lookup roomId = some record → record.icon = some icon ∨ record.icon = none

variable {icon : RoomIcon}

/--
A piece of a handler that leaves the upload directory alone, and a room with this icon or with none as one of
these.
-/
def KeepsIcon (roomId : String) (icon : RoomIcon) (p : Proto α) : Prop :=
  ∀ s tr a s', Prog.Trace p s tr a s' →
    s'.uploads = s.uploads ∧ fileChanges tr = [] ∧ (s.HoldsIcon roomId icon → s'.HoldsIcon roomId icon)

namespace KeepsIcon

theorem of_aside {p : Proto α} (hp : Aside p) : KeepsIcon roomId icon p := by
  intro s tr a s' h
  obtain ⟨hsame, hfiles, -⟩ := hp.trace h
  refine ⟨hsame.uploads, hfiles, fun h => ?_⟩
  rwa [AppState.HoldsIcon, hsame.database]

theorem bind {p : Proto α} {f : α → Proto β} (hp : KeepsIcon roomId icon p)
    (hf : ∀ a, KeepsIcon roomId icon (f a)) : KeepsIcon roomId icon (p >>= f) := by
  intro s tr b s' h
  obtain ⟨a, s₁, tr₁, tr₂, hrun, hrest, rfl⟩ := Prog.trace_bind_iff.1 h
  obtain ⟨huploads, hfiles, hkept⟩ := hp _ _ _ _ hrun
  obtain ⟨huploads', hfiles', hkept'⟩ := hf a _ _ _ _ hrest
  exact ⟨huploads'.trans huploads, by rw [fileChanges_append, hfiles, hfiles']; rfl, hkept' ∘ hkept⟩

end KeepsIcon

theorem trace_setRoomRecord {room : RoomRecord} {stored : Bool}
    (h : Prog.Trace (setRoomRecord roomId room) s tr stored s')
    : s'.uploads = s.uploads ∧ fileChanges tr = []
        ∧ (stored = false ∧ s'.database = s.database ∧ ¬ HasWritten roomId tr
          ∨ stored = true ∧ s'.database = s.database.insert roomId { room with roomId } ∧ HasWritten roomId tr) := by
  obtain ⟨e, rfl, rfl, rfl⟩ := Prog.trace_atom_iff.1 h
  split
  . exact ⟨rfl, rfl, .inl ⟨rfl, rfl, by simp [HasWritten]⟩⟩
  . exact ⟨rfl, rfl, .inr ⟨rfl, rfl, e, _, List.mem_singleton_self _⟩⟩

theorem AppState.HoldsIcon.of_insert {record : RoomRecord} (hdatabase : s'.database = s.database.insert roomId record)
    (hicon : record.icon = some icon ∨ record.icon = none) : s'.HoldsIcon roomId icon := by
  intro record' hrecord'
  rw [hdatabase, AList.lookup_insert] at hrecord'
  obtain rfl := Option.some.inj hrecord'
  exact hicon

theorem KeepsIcon.syncRoomRecord : KeepsIcon roomId icon (syncRoomRecord roomId) := by
  intro s tr result s' h
  obtain ⟨usernames, s₁, tr₁, tr₂, hlook, hrest, rfl⟩ := Prog.trace_bind_iff.1 h
  obtain ⟨e, rfl, -, rfl⟩ := Prog.trace_atom_iff.1 hlook
  obtain ⟨previous, s₂, tr₃, tr₄, hread, hrest', rfl⟩ := Prog.trace_bind_iff.1 hrest
  obtain ⟨e', rfl, rfl, rfl⟩ := Prog.trace_atom_iff.1 hread
  obtain ⟨stored, s₃, tr₅, tr₆, hwrite, hdone, rfl⟩ := Prog.trace_bind_iff.1 hrest'
  obtain ⟨huploads, hfiles, houtcome⟩ := trace_setRoomRecord hwrite
  have hend : s' = s₃ ∧ tr₆ = [] := by
    split at hdone
    . obtain ⟨rfl, -, rfl⟩ := Prog.trace_done_iff.1 hdone
      exact ⟨rfl, rfl⟩
    . obtain ⟨rfl, -, rfl⟩ := Prog.trace_done_iff.1 hdone
      exact ⟨rfl, rfl⟩
  obtain ⟨rfl, rfl⟩ := hend
  refine ⟨huploads, by rw [List.append_nil]; exact hfiles, fun hholds => ?_⟩
  rcases houtcome with ⟨-, hdatabase, -⟩ | ⟨-, hdatabase, -⟩
  . rwa [AppState.HoldsIcon, hdatabase]
  . refine .of_insert hdatabase ?_
    show ((e'.readRoom s₂ roomId).getD (defaultRecord roomId)).icon = _ ∨ _ = none
    -- a failed read gives a record without an icon
    cases hread : e'.readRoom s₂ roomId with
    | none => exact .inr rfl
    | some record =>
      rw [Env.readRoom] at hread
      split at hread
      . contradiction
      . exact hholds record hread

/--
The icon is put into the record of the room, or the record stays as it is.
-/
structure PutsIcon (roomId : String) (icon : RoomIcon) (s : AppState) (tr : List (Env × Label)) (s' : AppState)
    : Prop where
  uploads : s'.uploads = s.uploads
  files : fileChanges tr = []
  outcome : (¬ HasWritten roomId tr ∧ s'.database = s.database) ∨ (HasWritten roomId tr ∧ s'.HoldsIcon roomId icon)

theorem trace_setRoomIcon {p : Bool → Proto α} {a : α} (hstored : KeepsIcon roomId icon (p true))
    (hfailed : Aside (p false)) (h : Prog.Trace (setRoomIcon roomId icon >>= p) s tr a s')
    : PutsIcon roomId icon s tr s' := by
  obtain ⟨stored, s₁, tr₁, tr₂, hset, hrest, rfl⟩ := Prog.trace_bind_iff.1 h
  obtain ⟨previous, s₂, tr₃, tr₄, hread, hwrite, rfl⟩ := Prog.trace_bind_iff.1 hset
  obtain ⟨e, rfl, rfl, rfl⟩ := Prog.trace_atom_iff.1 hread
  obtain ⟨huploads, hfiles, ⟨rfl, hdatabase, hwritten⟩ | ⟨rfl, hdatabase, hwritten⟩⟩ := trace_setRoomRecord hwrite
  . obtain ⟨hsame, hfiles', hwritten'⟩ := hfailed.trace hrest
    refine ⟨hsame.uploads.trans huploads, by rw [fileChanges_append, hfiles', List.append_nil]; exact hfiles, .inl ⟨?_, ?_⟩⟩
    . rw [hasWritten_append, hasWritten_append, not_or, not_or]
      exact ⟨⟨by simp [HasWritten], hwritten⟩, hwritten' roomId⟩
    . rw [hsame.database, hdatabase]
  . obtain ⟨huploads', hfiles', hkept⟩ := hstored _ _ _ _ hrest
    refine ⟨huploads'.trans huploads, by rw [fileChanges_append, hfiles', List.append_nil]; exact hfiles, .inr ⟨?_, ?_⟩⟩
    . exact hasWritten_append.2 (.inl (hasWritten_append.2 (.inr hwritten)))
    . exact hkept (.of_insert hdatabase (.inl rfl))

theorem ReplacesIcon.puts (h : ReplacesIcon roomId s tr₁ s₁) (hwritten : ¬ HasWritten roomId tr₁)
    (hstored : .stored icon.file.id ∈ fileChanges tr₁) (h' : PutsIcon roomId icon s₁ tr₂ s')
    : ReplacesIcon roomId s (tr₁ ++ tr₂) s' := by
  have hfiles : fileChanges (tr₁ ++ tr₂) = fileChanges tr₁ := by rw [fileChanges_append, h'.files, List.append_nil]
  refine ⟨fun id => ?_, fun id hid => ?_, fun hnot => ?_, fun record icon' hhas hrecord hicon' => ?_⟩
  . rw [hfiles, h'.uploads]
    exact h.uploads id
  . rw [hfiles] at hid
    exact h.removed id hid
  . rw [hasWritten_append, not_or] at hnot
    rcases h'.outcome with ⟨-, hdatabase⟩ | ⟨hhas, -⟩
    . rw [hdatabase]
      exact h.record hnot.1
    . exact absurd hhas hnot.2
  . rw [hasWritten_append, or_iff_right hwritten] at hhas
    rcases h'.outcome with ⟨hnot, -⟩ | ⟨-, hholds⟩
    . exact absurd hhas hnot
    . rcases hholds record hrecord with hicon | hnone
      . obtain rfl := Option.some.inj (hicon'.symm.trans hicon)
        rwa [hfiles]
      . rw [hnone] at hicon'
        contradiction

theorem ReplacesIcon.before_aside {p : Proto α} {a : α} (h : ReplacesIcon roomId s tr₁ s₁)
    (hwritten : ¬ HasWritten roomId tr₁) (hp : Aside p) (hrest : Prog.Trace p s₁ tr₂ a s')
    : ReplacesIcon roomId s (tr₁ ++ tr₂) s' := by
  obtain ⟨hsame, hfiles, hwritten'⟩ := hp.trace hrest
  have hfiles' : fileChanges (tr₁ ++ tr₂) = fileChanges tr₁ := by rw [fileChanges_append, hfiles, List.append_nil]
  refine ⟨fun id => ?_, fun id hid => ?_, fun _ => ?_, fun record icon hhas => ?_⟩
  . rw [hfiles', hsame.uploads]
    exact h.uploads id
  . rw [hfiles'] at hid
    exact h.removed id hid
  . rw [hsame.database]
    exact h.record hwritten
  . exact absurd (hasWritten_append.1 hhas) (not_or.2 ⟨hwritten, hwritten' roomId⟩)

/--
The old file has been removed, and the new one stored unless that has failed.
-/
structure StoresIcon (roomId : String) (stored : Option StoredFile) (s : AppState) (tr : List (Env × Label))
    (s' : AppState) : Prop where
  replaces : ReplacesIcon roomId s tr s'
  written : ¬ HasWritten roomId tr
  stored (file : StoredFile) : stored = some file → .stored file.id ∈ fileChanges tr

theorem trace_storing {extension mimeType : String} {bytes : List UInt8} {p : Option StoredFile → Proto α} {a : α}
    (h : Prog.Trace (do
      let previousIcon ← roomIcon roomId
      removeIconFile previousIcon
      let stored ← storeUploadedBytes extension bytes mimeType
      p stored) s tr a s')
    : ∃ stored s₁ tr₁ tr₂, tr = tr₁ ++ tr₂ ∧ StoresIcon roomId stored s tr₁ s₁ ∧ Prog.Trace (p stored) s₁ tr₂ a s' := by
  obtain ⟨previous, s₁, tr₁, tr₂, hread, hrest, rfl⟩ := Prog.trace_bind_iff.1 h
  obtain ⟨u, s₂, tr₃, tr₄, hremove, hrest', rfl⟩ := Prog.trace_bind_iff.1 hrest
  obtain ⟨stored, s₃, tr₅, tr₆, hstore, hrest'', rfl⟩ := Prog.trace_bind_iff.1 hrest'
  have hroom : Aside (roomIcon roomId) := .bind (.roomRecord roomId) fun _ => .pure _
  obtain ⟨hsame, hfiles, hwritten⟩ := hroom.trace hread
  have hprevious (icon : RoomIcon) (hicon : previous = some icon)
      : ∃ record, s₁.database.lookup roomId = some record ∧ record.icon = some icon := by
    rw [hsame.database]
    exact trace_roomIcon hread icon hicon
  have hunlinks := trace_removeIconFile hremove
  have huploads := uploads_storeUploadedBytes hstore
  refine ⟨stored, s₃, tr₁ ++ (tr₃ ++ tr₅), tr₆, by simp, ⟨?_, ?_, fun file hfile => ?_⟩, hrest''⟩
  . exact .after_aside hroom hread (.of_unlinks hprevious hunlinks huploads)
  . rw [hasWritten_append, hasWritten_append, not_or, not_or]
    exact ⟨hwritten roomId, hunlinks.written roomId, huploads.written roomId⟩
  . rw [fileChanges_append, fileChanges_append]
    exact List.mem_append_right _ (List.mem_append_right _ (huploads.stored file hfile))

theorem trace_storeRoomIconFromPayload {d : Json} {result : Except String (Option RoomIcon)}
    (h : Prog.Trace (storeRoomIconFromPayload d roomId) s tr result s')
    : ReplacesIcon roomId s tr s' ∧ ¬ HasWritten roomId tr
        ∧ ∀ icon, result = .ok (some icon) → .stored icon.file.id ∈ fileChanges tr := by
  have hpure {a : Except String (Option RoomIcon)} (ha : ∀ icon, a ≠ .ok (some icon))
      (h : Prog.Trace (pure a : Proto (Except String (Option RoomIcon))) s tr result s')
      : ReplacesIcon roomId s tr s' ∧ ¬ HasWritten roomId tr
          ∧ ∀ icon, result = .ok (some icon) → .stored icon.file.id ∈ fileChanges tr := by
    refine ⟨.of_aside (.pure a) h, (Aside.trace (.pure a) h).2.2 roomId, fun icon hicon => ?_⟩
    obtain ⟨-, rfl, -⟩ := Prog.trace_done_iff.1 h
    exact absurd hicon (ha icon)
  unfold storeRoomIconFromPayload at h
  split at h
  . split at h
    . exact hpure (by simp) h
    . obtain ⟨stored, s₁, tr₁, tr₂, rfl, hstored, hrest⟩ := trace_storing h
      cases stored with
      | none =>
        refine ⟨hstored.replaces.before_aside hstored.written (.pure _) hrest, ?_, fun icon hicon => ?_⟩
        . obtain ⟨rfl, -, -⟩ := Prog.trace_done_iff.1 hrest
          rw [List.append_nil]
          exact hstored.written
        . obtain ⟨-, rfl, -⟩ := Prog.trace_done_iff.1 hrest
          contradiction
      | some file =>
        obtain ⟨rfl, rfl, rfl⟩ := Prog.trace_done_iff.1 hrest
        rw [List.append_nil]
        refine ⟨hstored.replaces, hstored.written, fun icon hicon => ?_⟩
        obtain rfl := Option.some.inj (Except.ok.inj hicon)
        exact hstored.stored file rfl
  . exact hpure (by simp) h

end Icons

section Handlers

variable {s s' : AppState} {tr : List (Env × Label)} {roomId : String}

/--
The run is about no other room.
-/
def Concerns (roomId : String) (tr : List (Env × Label)) : Prop :=
  ∀ e room result, (e, .read room result) ∈ tr → room = roomId

def Label.reads? : Label → Option String
  | .read roomId _ => some roomId
  | _ => none

theorem concerns_of_reads (h : ∀ room ∈ tr.filterMap (·.2.reads?), room = roomId) : Concerns roomId tr :=
  fun _ room _ hmem => h room (List.mem_filterMap.2 ⟨_, hmem, rfl⟩)

theorem replacesIcon_uploadRoomIcon {sid : String} {d : Json} {b : Bool}
    (h : Prog.Trace (uploadRoomIcon sid d) s tr b s') (hroom : Concerns roomId tr) : ReplacesIcon roomId s tr s' := by
  obtain ⟨userId, s₁, tr₁, tr₂, haccount, hrest₁, rfl⟩ := Prog.trace_bind_iff.1 h
  refine .after_aside (.bind (.getPlayer _) fun _ => .pure _) haccount ?_
  obtain ⟨limited, s₂, tr₃, tr₄, hlimit, hrest₂, rfl⟩ := Prog.trace_bind_iff.1 hrest₁
  refine .after_aside (.hitRateLimit _ _ _) hlimit ?_
  clear h hrest₁
  split at hrest₂
  . exact .of_aside (.respondError _ _ _ _) hrest₂
  obtain ⟨resolved, s₃, tr₅, tr₆, hresolve, hrest₃, rfl⟩ := Prog.trace_bind_iff.1 hrest₂
  refine .after_aside (.look _) hresolve ?_
  clear hrest₂
  split at hrest₃
  . exact .of_aside (.respondError _ _ _ _) hrest₃
  next roomId' =>
    obtain ⟨room, s₄, tr₇, tr₈, hread, hrest₄, rfl⟩ := Prog.trace_bind_iff.1 hrest₃
    obtain rfl : roomId' = roomId := by
      obtain ⟨e, rfl, -, -⟩ := Prog.trace_atom_iff.1 hread
      exact hroom e roomId' _ (List.mem_append_right _ (List.mem_append_right _ (List.mem_append_right _ (.head _))))
    refine .after_aside (.roomRecord _) hread ?_
    clear hrest₃
    split at hrest₄
    . exact .of_aside (.respondError _ _ _ _) hrest₄
    obtain ⟨result, s₅, tr₉, tr₁₀, hstore, hfinish, rfl⟩ := Prog.trace_bind_iff.1 hrest₄
    obtain ⟨hreplaces, hwritten, hstored⟩ := trace_storeRoomIconFromPayload hstore
    unfold finishRoomIcon at hfinish
    split at hfinish
    . exact hreplaces.before_aside hwritten (.respondError _ _ _ _) hfinish
    . exact hreplaces.before_aside hwritten (.respondError _ _ _ _) hfinish
    next icon =>
      refine hreplaces.puts hwritten (hstored icon rfl) (trace_setRoomIcon ?_ (.respondError _ _ _ _) hfinish)
      refine .bind .syncRoomRecord fun _ => .of_aside ?_
      exact .bind (.roomRecord _) fun _ => .bind (.look _) fun _ => .bind (.broadcastToRoom _ _) fun _ =>
        .respondOk _ _ _ _

theorem replacesIcon_httpUploadRoomIcon {userId room : String} {file : UploadedFile} {answer : Except String Json}
    (h : Prog.Trace (Http.uploadRoomIcon userId room file) s tr answer s') (hroom : Concerns roomId tr)
    : ReplacesIcon roomId s tr s' := by
  unfold Http.uploadRoomIcon at h
  dsimp only at h
  split at h
  . exact .of_aside (.pure _) h
  obtain ⟨isMember, s₁, tr₁, tr₂, hmember, hrest₁, rfl⟩ := Prog.trace_bind_iff.1 h
  refine .after_aside (.look _) hmember ?_
  clear h
  split at hrest₁
  . exact .of_aside (.pure _) hrest₁
  obtain ⟨record, s₂, tr₃, tr₄, hread, hrest₂, rfl⟩ := Prog.trace_bind_iff.1 hrest₁
  obtain rfl : Text.trim room = roomId := by
    obtain ⟨e, rfl, -, -⟩ := Prog.trace_atom_iff.1 hread
    exact hroom e _ _ (List.mem_append_right _ (.head _))
  refine .after_aside (.roomRecord _) hread ?_
  clear hrest₁
  split at hrest₂
  . exact .of_aside (.pure _) hrest₂
  split at hrest₂
  . exact .of_aside (.pure _) hrest₂
  obtain ⟨stored, s₃, tr₅, tr₆, rfl, hstored, hrest₃⟩ := trace_storing hrest₂
  cases stored with
  | none => exact hstored.replaces.before_aside hstored.written (.pure _) hrest₃
  | some stored =>
    have hputs : PutsIcon (Text.trim room) { file := stored } s₃ tr₆ s' := by
      refine trace_setRoomIcon ?_ ?_ hrest₃
      . refine .bind .syncRoomRecord fun result => .of_aside ?_
        split
        . exact .bind (.roomRecord _) fun _ => .bind (.look _) fun _ => .bind (.broadcastToRoom _ _) fun _ => .pure _
        . exact .pure _
      . exact .pure _
    exact hstored.replaces.puts hstored.written (hstored.stored stored rfl) hputs

end Handlers

end Lqxp
