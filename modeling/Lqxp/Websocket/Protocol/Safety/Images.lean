import Lqxp.Websocket.Protocol.Lemmas.Profiles
import Lqxp.Websocket.Protocol.System
import Lqxp.Presence.Consistency

/-!
This module contains the safety of uploads: when the images that records and profiles refer to are still in the
upload directory after an upload.
-/

namespace Lqxp

inductive ImageUpload where
  | roomIcon (sid : String) (d : Json)
  | httpRoomIcon (userId roomId : String) (file : UploadedFile)
  | profileImage (user : AuthenticatedUser) (kind : String) (file : UploadedFile)

/--
What refers to images.
-/
inductive ImageHolder where
  | room (roomId : String)
  | account (userId : String)

namespace AppState

/--
The names of the files that the stored record or profile refers to.
-/
def images (s : AppState) : ImageHolder → List String
  | .room roomId => ((s.database.lookup roomId).bind (·.icon)).toList.map (·.file.id)
  | .account userId =>
    match s.accounts.users.lookup userId with
    | some user => (user.profile.avatar.toList ++ user.profile.banner.toList).map (·.file.id)
    | none => []

def ImagesPresent (s : AppState) (holder : ImageHolder) : Prop := ∀ id ∈ s.images holder, id ∈ s.uploads

end AppState

/--
An upload of an avatar or a banner leaves a file in the upload directory.
-/
def LeavesFile (s : AppState) (tr : List (Env × Label)) (id : String) : Prop :=
  (id ∈ s.uploads ∨ .stored id ∈ fileChanges tr) ∧ .removed id ∉ fileChanges tr

namespace ImageUpload

/--
The answer is the one of the route, for an upload over HTTP.
-/
def run : ImageUpload → Proto (Option (Except String Json))
  | .roomIcon sid d => do
    let _ ← uploadRoomIcon sid d
    return none
  | .httpRoomIcon userId roomId file => do return some (← Http.uploadRoomIcon userId roomId file)
  | .profileImage user kind file => do return some (← Http.uploadProfileImage user kind file)

/--
The room whose icon or the account whose image the upload is about.
-/
def Concerns (tr : List (Env × Label)) : ImageUpload → ImageHolder → Prop
  | .roomIcon .., .room roomId => Lqxp.Concerns roomId tr
  | .httpRoomIcon .., .room roomId => Lqxp.Concerns roomId tr
  | .profileImage user .., .account userId => userId = user.id
  | _, _ => False

/--
The files go with what refers to them. An icon whose file is removed is replaced in the record. An upload to a profile
that fails after the old image of the authenticated profile has been removed (the profile could not be written) finds
no such image in the stored profile. One that succeeds leaves the new file and the one of the image of the other kind,
which comes from a copy of the profile.
-/
def SparesFiles (s : AppState) (tr : List (Env × Label)) (answer : Option (Except String Json))
    : ImageUpload → ImageHolder → Prop
  | .profileImage user name _, .account _ =>
    match answer with
    | some (.ok _) => (s.accounts.users.lookup user.id).isSome →
      (∀ id, .stored id ∈ fileChanges tr → LeavesFile s tr id)
        ∧ ∀ kind image, ProfileImageKind.parse name ≠ some kind → (s.copyUsed tr user).image kind = some image →
          LeavesFile s tr image.file.id
    | _ => ∀ kind old, ProfileImageKind.parse name = some kind → user.profile.image kind = some old →
      .removed old.file.id ∈ fileChanges tr → old.file.id ∉ s.images (.account user.id)
  | _, .room roomId => ∀ id, .removed id ∈ fileChanges tr → .stored id ∈ fileChanges tr ∨ HasWritten roomId tr
  | _, _ => False

end ImageUpload

section Icons

variable {s s' : AppState} {tr : List (Env × Label)} {roomId : String}

theorem mem_images_room {id : String}
    : id ∈ s.images (.room roomId)
        ↔ ∃ record icon, s.database.lookup roomId = some record ∧ record.icon = some icon ∧ icon.file.id = id := by
  simp only [AppState.images, List.mem_map, Option.mem_toList, Option.bind_eq_some_iff]
  constructor
  . rintro ⟨icon, ⟨record, hrecord, hicon⟩, hid⟩
    exact ⟨record, icon, hrecord, hicon, hid⟩
  . rintro ⟨record, icon, hrecord, hicon, hid⟩
    exact ⟨icon, ⟨record, hrecord, hicon⟩, hid⟩

theorem ReplacesIcon.imagesPresent_room_iff (h : ReplacesIcon roomId s tr s') (hpresent : s.ImagesPresent (.room roomId))
    : s'.ImagesPresent (.room roomId)
        ↔ ∀ id, .removed id ∈ fileChanges tr → .stored id ∈ fileChanges tr ∨ HasWritten roomId tr := by
  constructor
  . intro hpresent' id hremoved
    by_contra hnot
    obtain ⟨hstored, hwritten⟩ := not_or.1 hnot
    -- the record still refers to the file
    have hmem : id ∈ s'.images (.room roomId) := by
      rw [mem_images_room, h.record hwritten]
      exact h.removed id hremoved
    rcases (h.uploads id).1 (hpresent' id hmem) with ⟨-, hkept⟩ | hnew
    . exact hkept hremoved
    . exact hstored hnew
  . intro hspares id hmem
    rw [h.uploads]
    obtain ⟨record, icon, hrecord, hicon, rfl⟩ := mem_images_room.1 hmem
    by_cases hwritten : HasWritten roomId tr
    . exact .inr (h.written record icon hwritten hrecord hicon)
    . rw [h.record hwritten] at hrecord
      by_cases hremoved : .removed icon.file.id ∈ fileChanges tr
      . exact (hspares _ hremoved).elim .inr fun hhas => absurd hhas hwritten
      . exact .inl ⟨hpresent _ (mem_images_room.2 ⟨record, icon, hrecord, hicon, rfl⟩), hremoved⟩

end Icons

section Profiles

variable {s s' : AppState} {tr : List (Env × Label)} {user : AuthenticatedUser} {kind : ProfileImageKind}
  {image : ProfileImage} {answer : Except String Json}

theorem mem_images_account {userId id : String}
    : id ∈ s.images (.account userId)
        ↔ ∃ row kind image, s.accounts.users.lookup userId = some row ∧ row.profile.image kind = some image
          ∧ image.file.id = id := by
  rw [AppState.images]
  cases s.accounts.users.lookup userId with
  | none => simp
  | some row =>
    constructor
    . intro hmem
      obtain ⟨image, himage, rfl⟩ := List.mem_map.1 hmem
      rcases List.mem_append.1 himage with havatar | hbanner
      . exact ⟨row, .avatar, image, rfl, Option.mem_toList.1 havatar, rfl⟩
      . exact ⟨row, .banner, image, rfl, Option.mem_toList.1 hbanner, rfl⟩
    . rintro ⟨row', kind, image, ⟨rfl⟩, himage, rfl⟩
      refine List.mem_map_of_mem (List.mem_append.2 ?_)
      cases kind with
      | avatar => exact .inl (Option.mem_toList.2 himage)
      | banner => exact .inr (Option.mem_toList.2 himage)

theorem UserProfile.image_withImage (profile : UserProfile) (kind kind' : ProfileImageKind) (image : ProfileImage)
    : (profile.withImage kind image).image kind' = if kind' = kind then some image else profile.image kind' := by
  cases kind <;> cases kind' <;> rfl

theorem ImagesPresent.of_sameFiles {holder : ImageHolder} (h : SameFiles s s') (hpresent : s.ImagesPresent holder)
    : s'.ImagesPresent holder := by
  intro id hid
  rw [h.uploads]
  refine hpresent id ?_
  cases holder with
  | room roomId => rwa [AppState.images, h.database] at hid
  | account userId => rwa [AppState.images, h.accounts] at hid

theorem SharesImage.imagesPresent_of_failure (h : SharesImage user kind image s tr answer s')
    (haccounts : s'.accounts = s.accounts) (hpresent : s.ImagesPresent (.account user.id))
    : s'.ImagesPresent (.account user.id)
        ↔ ∀ old, user.profile.image kind = some old → .removed old.file.id ∈ fileChanges tr →
          old.file.id ∉ s.images (.account user.id) := by
  have himages : s'.images (.account user.id) = s.images (.account user.id) := by
    rw [AppState.images, AppState.images, haccounts]
  rw [AppState.ImagesPresent, himages]
  constructor
  . intro hpresent' old _ hremoved hid
    exact ((h.uploads _).1 (hpresent' _ hid)).2 hremoved
  . intro hspares id hid
    refine (h.uploads id).2 ⟨.inl (hpresent id hid), fun hremoved => ?_⟩
    -- only the old image of the authenticated profile is removed
    obtain ⟨old, hold, rfl⟩ := Option.map_eq_some_iff.1 (h.removed id hremoved)
    exact hspares old hold hremoved hid

theorem SharesImage.imagesPresent_of_success (h : SharesImage user kind image s tr answer s')
    (haccounts : s'.accounts
      = s.accounts.withProfile user.id ((s.copyUsed tr user).withImage kind image))
    : s'.ImagesPresent (.account user.id)
        ↔ ((s.accounts.users.lookup user.id).isSome →
          (∀ id, .stored id ∈ fileChanges tr → LeavesFile s tr id)
            ∧ ∀ kind' image', kind ≠ kind' → (s.copyUsed tr user).image kind' = some image' →
              LeavesFile s tr image'.file.id) := by
  have hmem (id : String) : id ∈ s'.images (.account user.id) ↔ (s.accounts.users.lookup user.id).isSome
      ∧ ∃ kind' image', ((s.copyUsed tr user).withImage kind image).image kind' = some image'
        ∧ image'.file.id = id := by
    rw [mem_images_account, haccounts, AccountDatabase.lookup_withProfile]
    cases s.accounts.users.lookup user.id with
    | none => simp
    | some row => simp
  constructor
  . intro hpresent hrow
    refine ⟨fun id hid => ?_, fun kind' image' hkind himage => ?_⟩
    . refine (h.uploads id).1 (hpresent id ((hmem id).2 ⟨hrow, kind, image, ?_, ((h.stored id).1 hid).symm⟩))
      rw [UserProfile.image_withImage, if_pos rfl]
    . refine (h.uploads _).1 (hpresent _ ((hmem _).2 ⟨hrow, kind', image', ?_, rfl⟩))
      rwa [UserProfile.image_withImage, if_neg (Ne.symm hkind)]
  . intro hleaves id hid
    obtain ⟨hrow, kind', image', himage, rfl⟩ := (hmem id).1 hid
    obtain ⟨hnew, hother⟩ := hleaves hrow
    rw [UserProfile.image_withImage] at himage
    rw [h.uploads]
    by_cases hkind : kind' = kind
    . rw [if_pos hkind] at himage
      obtain rfl := Option.some.inj himage
      exact hnew _ ((h.stored _).2 rfl)
    . rw [if_neg hkind] at himage
      exact hother kind' image' (Ne.symm hkind) himage

end Profiles

namespace ImageUpload

variable {s s' : AppState} {tr : List (Env × Label)} {upload : ImageUpload} {holder : ImageHolder}
  {answer : Option (Except String Json)}

theorem trace_map {p : Proto α} {f : α → β} {b : β} (h : Prog.Trace (do return f (← p)) s tr b s')
    : ∃ a, Prog.Trace p s tr a s' ∧ b = f a := by
  obtain ⟨a, s₁, tr₁, tr₂, hrun, hdone, rfl⟩ := Prog.trace_bind_iff.1 h
  obtain ⟨rfl, rfl, rfl⟩ := Prog.trace_done_iff.1 hdone
  exact ⟨a, by rwa [List.append_nil], rfl⟩

/--
After an upload of an image the files that the record or the profile refers to are there if and only if the upload
spares them.
-/
theorem imagesPresent_iff (h : Prog.Trace upload.run s tr answer s') (hholder : upload.Concerns tr holder)
    (hpresent : s.ImagesPresent holder) : s'.ImagesPresent holder ↔ upload.SparesFiles s tr answer holder := by
  cases upload with
  | roomIcon sid d =>
    cases holder with
    | account userId => exact hholder.elim
    | room roomId =>
      obtain ⟨b, hrun, -⟩ := trace_map h
      exact (replacesIcon_uploadRoomIcon hrun hholder).imagesPresent_room_iff hpresent
  | httpRoomIcon userId room file =>
    cases holder with
    | account userId => exact hholder.elim
    | room roomId =>
      obtain ⟨json, hrun, -⟩ := trace_map h
      exact (replacesIcon_httpUploadRoomIcon hrun hholder).imagesPresent_room_iff hpresent
  | profileImage user name file =>
    cases holder with
    | room roomId => exact hholder.elim
    | account userId =>
      obtain rfl : userId = user.id := hholder
      obtain ⟨json, hrun, rfl⟩ := trace_map h
      rcases trace_uploadProfileImage hrun with ⟨⟨text, rfl⟩, hsame, hfiles⟩ | ⟨kind, image, hkind, hshares⟩
      . refine iff_of_true (ImagesPresent.of_sameFiles hsame hpresent) fun _ _ _ _ hremoved => ?_
        rw [hfiles] at hremoved
        exact absurd hremoved List.not_mem_nil
      . rcases hshares.outcome with ⟨⟨text, rfl⟩, haccounts⟩ | ⟨⟨json, rfl⟩, haccounts⟩
        . rw [hshares.imagesPresent_of_failure haccounts hpresent]
          simp only [SparesFiles, hkind, Option.some.injEq]
          constructor
          . rintro hspares _ old rfl hold
            exact hspares old hold
          . exact fun hspares old hold => hspares kind old rfl hold
        . rw [hshares.imagesPresent_of_success haccounts]
          simp only [SparesFiles, hkind, ne_eq, Option.some.injEq]

def smallPng : UploadedFile := { bytes := pngSignature ++ List.replicate 16 1 }

def iconScript : List (Request × Env) :=
  [(.connect "phone", {}), (.message "phone" .identify (tokenRequest "a"), {}),
    (.message "phone" .join (roomRequest "lobby123"), {}),
    (.httpIcon "1" "lobby123" smallPng, { randomId := "icon" })]

/--
The upload directory and the references to it before and after another upload of the icon, and whether that is about
the one room only.
-/
def iconsAround (e : Env) (s : AppState) : List (List String) × Bool :=
  let (tr, _, s') := (httpRoomIcon "1" "lobby123" smallPng).run.play e s
  ([s.uploads, s.images (.room "lobby123"), s'.uploads, s'.images (.room "lobby123")],
    (tr.filterMap (·.2.reads?)).all (· = "lobby123"))

theorem exists_secondUpload {e : Env} {uploads images : List String}
    (h : ((Prog.Served.playAll Request.handle (fun _ _ _ => true) iconScript twoUsers).map (·.2)).bind
      (fun s => some (iconsAround e s)) = some ([["icon.png"], ["icon.png"], uploads, images], true))
    : ∃ log s tr answer s', Prog.Served Request.handle (fun _ _ _ => True) twoUsers log s
        ∧ Prog.Trace (httpRoomIcon "1" "lobby123" smallPng).run s tr answer s'
        ∧ (httpRoomIcon "1" "lobby123" smallPng).Concerns tr (.room "lobby123")
        ∧ s.ImagesPresent (.room "lobby123") ∧ s.images (.room "lobby123") = ["icon.png"]
        ∧ s'.uploads = uploads ∧ s'.images (.room "lobby123") = images := by
  obtain ⟨log, s, hserved, hvalues⟩ := Prog.Served.exists_of_playAll h
  simp only [iconsAround, Option.some.injEq, Prod.mk.injEq, List.cons.injEq] at hvalues
  obtain ⟨⟨hbefore, himages, huploads, himages', -⟩, hreads⟩ := hvalues
  have hpresent : s.ImagesPresent (.room "lobby123") := by
    rw [AppState.ImagesPresent, himages, hbefore]
    exact fun id hid => hid
  refine ⟨log, s, _, _, _, hserved.mono fun _ _ _ _ => trivial, Prog.trace_play e _ s, ?_, hpresent, himages, huploads,
    himages'⟩
  exact concerns_of_reads fun room hroom => of_decide_eq_true (List.all_eq_true.1 hreads room hroom)

/--
A second icon takes the place of the first one.
-/
theorem imagesPresent_iff_secondIcon
    : ∃ s tr answer s', Prog.Trace (httpRoomIcon "1" "lobby123" smallPng).run s tr answer s'
        ∧ s.images (.room "lobby123") = ["icon.png"] ∧ s'.images (.room "lobby123") = ["second.png"]
        ∧ (httpRoomIcon "1" "lobby123" smallPng).SparesFiles s tr answer (.room "lobby123") := by
  have hplay : ((Prog.Served.playAll Request.handle (fun _ _ _ => true) iconScript twoUsers).map (·.2)).bind
      (fun s => some (iconsAround { randomId := "second" } s))
      = some ([["icon.png"], ["icon.png"], ["second.png"], ["second.png"]], true) := by decide +kernel
  obtain ⟨log, s, tr, answer, s', -, hrun, hroom, hpresent, himages, huploads, himages'⟩ := exists_secondUpload hplay
  refine ⟨s, tr, answer, s', hrun, himages, himages', (imagesPresent_iff hrun hroom hpresent).1 ?_⟩
  rw [AppState.ImagesPresent, himages', huploads]
  exact fun id hid => hid

/--
The old icon is gone and the new one cannot be stored.
-/
theorem not_imagesPresent
    : ¬∀ start s log, start.players = ∅ → start.database = ∅ → start.uploads = [] →
        Prog.Served Request.handle (fun _ _ _ => True) start log s →
          ∀ (upload : ImageUpload) holder tr answer s', Prog.Trace upload.run s tr answer s' →
            upload.Concerns tr holder → s.ImagesPresent holder → s'.ImagesPresent holder := by
  intro hall
  have hplay : ((Prog.Served.playAll Request.handle (fun _ _ _ => true) iconScript twoUsers).map (·.2)).bind
      (fun s => some (iconsAround { uploadFails := true } s))
      = some ([["icon.png"], ["icon.png"], [], ["icon.png"]], true) := by decide +kernel
  obtain ⟨log, s, tr, answer, s', hserved, hrun, hroom, hpresent, -, huploads, himages⟩ := exists_secondUpload hplay
  have hafter := hall twoUsers s log rfl rfl rfl hserved _ _ tr answer s' hrun hroom hpresent
  rw [AppState.ImagesPresent, himages, huploads] at hafter
  exact List.not_mem_nil (hafter "icon.png" (List.mem_singleton_self _))

end ImageUpload

end Lqxp
