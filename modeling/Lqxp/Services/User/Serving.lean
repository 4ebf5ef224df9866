import Lqxp.Data.Fields
import Lqxp.Prog.Rely
import Lqxp.Server.Routes
import Lqxp.Websocket.Protocol.Lemmas.Profiles

/-!
This module contains which of the stored uploads the route of the uploaded files serves.
-/

namespace Lqxp

section FileIds

/--
The file id is a single component of a path, and the route takes it for the id of an upload.
-/
structure Servable (id : String) : Prop where
  component : components id = [.normal id]
  valid : isValidUploadFileId id

/--
The text of a UUID without hyphens.
-/
def IsSimpleUuid (s : String) : Prop := s.toList.length = 32 ∧ ∀ c ∈ s.toList, Text.isLowerHexDigit c

/--
An extension that the route accepts. It may be left out.
-/
def IsUploadExtension (ext : String) : Prop :=
  ext = "" ∨ Text.len ext ≤ 10 ∧ ext.toList.all Text.isAsciiAlphanumeric

theorem not_mem_of_components_eq {id : String} (h : components id = [.normal id]) : '/' ∉ id.toList := by
  have hmem : Component.normal id ∈ components id := by rw [h]; exact List.mem_singleton_self _
  rcases List.mem_append.1 hmem with hfirst | hrest
  . split at hfirst
    . simp at hfirst
    . split at hfirst <;> simp at hfirst
  . obtain ⟨piece, hpiece, hpart⟩ := List.mem_filterMap.1 hrest
    split at hpart
    . contradiction
    . contradiction
    . simp at hpart
    . obtain rfl := Component.normal.inj (Option.some.inj hpart)
      exact Text.not_mem_of_mem_splitOn hpiece

theorem components_eq_singleton_iff {id : String} (h : 32 ≤ id.toList.length)
    : components id = [.normal id] ↔ '/' ∉ id.toList := by
  have hne (piece : String) (hpiece : piece.toList.length < 32) : id ≠ piece := by
    rintro rfl
    omega
  refine ⟨not_mem_of_components_eq, fun hslash => ?_⟩
  have hroot : Text.startsWith id "/" = false := by
    rw [Text.startsWith]
    cases hid : id.toList with
    | nil => rfl
    | cons c cs =>
      have hc : c ≠ '/' := by
        rintro rfl
        exact hslash (hid ▸ List.mem_cons_self)
      simp [List.isPrefixOf, hc.symm]
  have hdot : ¬[id].head? = some "." := by simpa using hne "." (by decide)
  unfold components
  rw [Text.splitOn_eq_singleton hslash]
  dsimp only
  rw [hroot, if_neg (by simp), if_neg hdot, List.nil_append, List.filterMap_cons, List.filterMap_nil]
  split
  next hnone =>
    split at hnone
    . exact absurd rfl (hne "" (by decide))
    . exact absurd rfl (hne "." (by decide))
    . contradiction
    . contradiction
  next part hsome =>
    split at hsome
    . contradiction
    . contradiction
    . exact absurd rfl (hne ".." (by decide))
    . rw [← Option.some.inj hsome]

theorem trimStartMatches_eq_self {p : Char → Bool} {s : String} (h : ∀ c ∈ s.toList, p c = false)
    : Text.trimStartMatches p s = s := by
  rw [Text.trimStartMatches]
  cases hs : s.toList with
  | nil => exact String.toList_inj.1 (by simp [hs])
  | cons c cs =>
    have hc : p c = false := h c (by rw [hs]; exact List.mem_cons_self)
    rw [List.dropWhile_cons_of_neg (by simp [hc]), ← hs, String.ofList_toList]

theorem fileName_of_component {id : String} (h : components id = [.normal id]) : fileName id = some id := by
  rw [fileName, h]
  rfl

variable {uuid ext : String}

theorem isAsciiHexDigit_of_isLowerHexDigit {c : Char} (h : Text.isLowerHexDigit c) : isAsciiHexDigit c := by
  simp only [Text.isLowerHexDigit, Char.isDigit, isAsciiHexDigit, Bool.or_eq_true, Bool.and_eq_true,
    decide_eq_true_eq] at h ⊢
  rcases h with hdigit | hletter
  . exact .inl (.inl hdigit)
  . exact .inl (.inr hletter)

theorem IsSimpleUuid.len (h : IsSimpleUuid uuid) : Text.len uuid = 32 := by
  rw [Text.len_eq_length fun c hc => Text.utf8Size_of_isLowerHexDigit (h.2 c hc), h.1]

theorem IsSimpleUuid.all (h : IsSimpleUuid uuid) : uuid.toList.all isAsciiHexDigit :=
  List.all_eq_true.2 fun c hc => isAsciiHexDigit_of_isLowerHexDigit (h.2 c hc)

theorem IsSimpleUuid.not_mem (h : IsSimpleUuid uuid) {c : Char} (hc : Text.isLowerHexDigit c = false)
    : c ∉ uuid.toList := by
  intro hmem
  rw [h.2 c hmem] at hc
  contradiction

theorem servable_uuid (h : IsSimpleUuid uuid) : Servable uuid := by
  have hcomponent := (components_eq_singleton_iff (Nat.le_of_eq h.1.symm)).2 (h.not_mem (by decide))
  have htrim : Text.trimStartMatches (· = '/') uuid = uuid :=
    trimStartMatches_eq_self fun c hc => decide_eq_false fun heq => h.not_mem (by decide) (heq ▸ hc)
  refine ⟨hcomponent, ?_⟩
  rw [isValidUploadFileId, htrim, fileName_of_component hcomponent, Option.getD_some,
    Text.splitOn_eq_singleton (h.not_mem (by decide))]
  simp [h.len, h.all]

theorem servable_append_iff (h : IsSimpleUuid uuid) (hdot : '.' ∉ ext.toList)
    : Servable (uuid ++ "." ++ ext)
        ↔ ext ≠ "" ∧ Text.len ext ≤ 10 ∧ ext.toList.all Text.isAsciiAlphanumeric := by
  have hlength : 32 ≤ (uuid ++ "." ++ ext).toList.length := by
    rw [String.toList_append, String.toList_append, List.length_append, List.length_append, h.1]
    omega
  have hslash : '/' ∉ (uuid ++ "." ++ ext).toList ↔ '/' ∉ ext.toList := by
    simp [h.not_mem (show Text.isLowerHexDigit '/' = false by decide)]
  have hpieces : Text.splitOn '.' (uuid ++ "." ++ ext) = [uuid, ext] := by
    have hjoin : Text.join '.' [uuid, ext] = uuid ++ "." ++ ext := String.toList_inj.1 (by simp)
    rw [← hjoin]
    refine Text.splitOn_join (by simp) fun field hfield => ?_
    rcases List.mem_cons.1 hfield with rfl | hfield
    . exact h.not_mem (by decide)
    . rwa [List.mem_singleton.1 hfield]
  have hvalid (hcomponent : '/' ∉ ext.toList) : isValidUploadFileId (uuid ++ "." ++ ext)
      ↔ ext ≠ "" ∧ Text.len ext ≤ 10 ∧ ext.toList.all Text.isAsciiAlphanumeric := by
    have hname := fileName_of_component ((components_eq_singleton_iff hlength).2 (hslash.2 hcomponent))
    have htrim : Text.trimStartMatches (· = '/') (uuid ++ "." ++ ext) = uuid ++ "." ++ ext :=
      trimStartMatches_eq_self fun c hc => decide_eq_false fun heq => hslash.2 hcomponent (heq ▸ hc)
    rw [isValidUploadFileId, htrim, hname, Option.getD_some, hpieces]
    simp [h.len, h.all, and_assoc]
  constructor
  . intro hservable
    exact (hvalid (hslash.1 ((components_eq_singleton_iff hlength).1 hservable.component))).1 hservable.valid
  . intro hext
    have hnot : '/' ∉ ext.toList := by
      intro hmem
      have := List.all_eq_true.1 hext.2.2 _ hmem
      contradiction
    exact ⟨(components_eq_singleton_iff hlength).2 (hslash.2 hnot), (hvalid hnot).2 hext⟩

theorem Servable.uploadAssetPath {id : String} (h : Servable id) : uploadAssetPath id = some [id] := by
  have htrim : Text.trimStartMatches (· = '/') id = id :=
    trimStartMatches_eq_self fun c hc => decide_eq_false fun heq => not_mem_of_components_eq h.component (heq ▸ hc)
  rw [Lqxp.uploadAssetPath, safeChildPath, htrim, h.component, h.valid]
  rfl

end FileIds

section Naming

/--
The id that an upload with the given extension gets.
-/
def storedId (e : Env) (extension : String) : String :=
  if Text.trim extension = "" then
    e.randomId
  else
    e.randomId ++ "." ++ Text.trimStartMatches (· = '.') (Text.trim extension)

theorem servable_storedId_iff {e : Env} {extension : String} (he : IsSimpleUuid e.randomId)
    (hdot : '.' ∉ extension.toList) : Servable (storedId e extension) ↔ IsUploadExtension (Text.trim extension) := by
  have hdot' : '.' ∉ (Text.trim extension).toList := by
    rw [Text.trim, Text.trimMatches, String.toList_ofList]
    exact fun hmem => hdot ((List.dropWhile_sublist _).mem ((List.rdropWhile_prefix _ _).mem hmem))
  have htrim : Text.trimStartMatches (· = '.') (Text.trim extension) = Text.trim extension :=
    trimStartMatches_eq_self fun c hc => decide_eq_false fun heq => hdot' (heq ▸ hc)
  rw [storedId]
  split
  next hempty => exact iff_of_true (servable_uuid he) (.inl hempty)
  next hne =>
    rw [htrim, servable_append_iff he hdot', and_iff_right hne, IsUploadExtension, or_iff_right hne]

/--
A piece of a handler that stores files only under ids with the given extension, and none without one.
-/
abbrev Names (extension : Option String) (p : Proto α) : Prop :=
  Prog.Spec (fun (_ : Unit) _ => ())
    (fun _ e _ l _ => ∀ id, l = .file (.stored id) → ∃ ext ∈ extension, id = storedId e ext) (fun _ _ => True) p ()

namespace Names

variable {extension : Option String}

theorem pure (a : α) : Names extension (pure a : Proto α) := trivial

theorem bind {p : Proto α} {f : α → Proto β} (hp : Names extension p) (hf : ∀ a, Names extension (f a))
    : Names extension (p >>= f) :=
  Prog.Spec.bind_iff.2 (hp.mono fun a _ _ => hf a)

theorem of_aside {p : Proto α} (hp : Aside p) : Names extension p := by
  induction p with
  | done a => trivial
  | step act rest ih =>
    intro e s
    obtain ⟨⟨hlabel, -⟩, hrest⟩ := hp e s
    refine ⟨fun id hid => ?_, ih e s hrest⟩
    rw [hid] at hlabel
    contradiction

theorem storeUploadedBytes {ext : String} (h : extension = some ext) (bytes : List UInt8) (mimeType : String)
    : Names extension (storeUploadedBytes ext bytes mimeType) := by
  refine Prog.Spec.atom_iff.2 fun e s => ⟨fun id hid => ⟨ext, h, ?_⟩, trivial⟩
  split at hid
  . contradiction
  . exact (FileChange.stored.inj (Label.file.inj hid)).symm

theorem removeUploadedFile (fileId : String) : Names extension (removeUploadedFile fileId) := by
  refine Prog.Spec.atom_iff.2 fun e s => ⟨fun id hid => ?_, trivial⟩
  split at hid <;> simp at hid

theorem setRoomRecord (roomId : String) (room : RoomRecord) : Names extension (setRoomRecord roomId room) := by
  refine Prog.Spec.atom_iff.2 fun e s => ⟨fun id hid => ?_, trivial⟩
  split at hid <;> simp at hid

theorem updateProfile (userId : String) (profile : UserProfile) : Names extension (updateProfile userId profile) := by
  refine Prog.Spec.atom_iff.2 fun e s => ⟨fun id hid => ?_, trivial⟩
  split at hid <;> simp at hid

theorem removeIconFile (previous : Option RoomIcon) : Names extension (removeIconFile previous) := by
  cases previous with
  | none => exact .pure _
  | some icon => exact .removeUploadedFile _

theorem removeProfileImage (image : Option ProfileImage) : Names extension (removeProfileImage image) := by
  cases image with
  | none => exact .pure _
  | some image => exact .removeUploadedFile _

theorem syncRoomRecord (roomId : String) : Names extension (syncRoomRecord roomId) := by
  refine .bind (.of_aside (.look _)) fun usernames => .bind (.of_aside (.roomRecord _)) fun previous => ?_
  refine .bind (.setRoomRecord _ _) fun stored => ?_
  split
  . exact .pure _
  . exact .pure _

theorem finishProfileImage (user : AuthenticatedUser) (kind : ProfileImageKind) (image : ProfileImage)
    : Names extension (Http.finishProfileImage user kind image) := by
  refine .bind (.of_aside (.atom fun e s => ⟨rfl, rfl, rfl, rfl⟩)) fun shared => .bind (.removeProfileImage _) fun _ => ?_
  refine .bind (.updateProfile _ _) fun written => ?_
  split
  . exact .bind (.of_aside (.broadcastProfileUpdate _ _)) fun _ => .pure _
  . exact .pure _

end Names

end Naming

section Uploads

/--
The requests that store a file, each with what its handler takes.
-/
inductive Upload where
  | attachment (raw : Option Json)
  | roomIcon (d : Json) (roomId : String)
  | httpRoomIcon (userId roomId : String) (file : UploadedFile)
  | profileImage (raw : Option Json) (maxBytes : Nat)
  | httpProfileImage (user : AuthenticatedUser) (kind : String) (file : UploadedFile)

namespace Upload

def handle : Upload → Proto Unit
  | attachment raw => do let _ ← parseAttachment raw
  | roomIcon d roomId => do let _ ← storeRoomIconFromPayload d roomId
  | httpRoomIcon userId roomId file => do let _ ← Http.uploadRoomIcon userId roomId file
  | profileImage raw maxBytes => do let _ ← parseProfileImage raw maxBytes
  | httpProfileImage user kind file => do let _ ← Http.uploadProfileImage user kind file

/--
The extension that an accepted upload gives its file, before it is trimmed.
-/
def extension : Upload → Option String
  | attachment raw => do
    let (filename, _, _) ← (decodeAttachment (← raw.filter (!·.isNull))).toOption
    return (Text.afterLast '.' filename).getD ""
  | roomIcon d _ => do
    let (extension, _, _) ← (decodeRoomIcon (← (d.get? "file").filter (!·.isNull))).toOption
    return extension
  | httpRoomIcon _ _ file => do
    let (extension, _) ← file.check.toOption
    return extension
  | profileImage raw maxBytes => do
    let (mimeType, _, _, _) ← (decodeProfileImage (← raw.filter (!·.isNull)) maxBytes).toOption
    return fileExtension "" mimeType
  | httpProfileImage _ kind file => do
    let (extension, _, _, _) ← (file.checkImage (← ProfileImageKind.parse kind)).toOption
    return extension

theorem names_handle (u : Upload) : Names u.extension u.handle := by
  cases u with
  | attachment raw =>
    refine .bind ?_ fun _ => .pure _
    unfold parseAttachment
    split
    next obj hobj =>
      split
      . exact .pure _
      next filename mimeType decoded hcontent =>
        refine .bind (.storeUploadedBytes ?_ _ _) fun stored => ?_
        . simp [extension, hobj, hcontent, Except.toOption]
        . cases stored with
          | _ => exact .pure _
    next => exact .pure _
  | roomIcon d roomId =>
    refine .bind ?_ fun _ => .pure _
    unfold storeRoomIconFromPayload
    split
    next obj hobj =>
      split
      . exact .pure _
      next ext mimeType decoded hcontent =>
        refine .bind (.of_aside (.bind (.roomRecord _) fun _ => .pure _)) fun previous => ?_
        refine .bind (.removeIconFile _) fun _ => .bind (.storeUploadedBytes ?_ _ _) fun stored => ?_
        . simp [extension, hobj, hcontent, Except.toOption]
        . cases stored with
          | _ => exact .pure _
    next => exact .pure _
  | httpRoomIcon userId roomId file =>
    refine .bind ?_ fun _ => .pure _
    unfold Http.uploadRoomIcon
    dsimp only
    split
    . exact .pure _
    refine .bind (.of_aside (.look _)) fun isMember => ?_
    split
    . exact .pure _
    refine .bind (.of_aside (.roomRecord _)) fun room => ?_
    split
    . exact .pure _
    split
    . exact .pure _
    next ext mimeType hcontent =>
      refine .bind (.of_aside (.bind (.roomRecord _) fun _ => .pure _)) fun previous => ?_
      refine .bind (.removeIconFile _) fun _ => .bind (.storeUploadedBytes ?_ _ _) fun stored => ?_
      . simp [extension, hcontent, Except.toOption]
      . cases stored with
        | none => exact .pure _
        | some stored =>
          refine .bind (.bind (.of_aside (.roomRecord _)) fun _ => .setRoomRecord _ _) fun written => ?_
          split
          . refine .bind (.syncRoomRecord _) fun synced => ?_
            split
            . refine .of_aside (.bind (.roomRecord _) fun _ => .bind (.look _) fun _ => ?_)
              exact .bind (.broadcastToRoom _ _) fun _ => .pure _
            . exact .pure _
          . exact .pure _
  | profileImage raw maxBytes =>
    refine .bind ?_ fun _ => .pure _
    unfold parseProfileImage
    split
    next obj hobj =>
      split
      . exact .pure _
      next mimeType decoded width height hcontent =>
        refine .bind (.storeUploadedBytes ?_ _ _) fun stored => ?_
        . simp [extension, hobj, hcontent, Except.toOption]
        . cases stored with
          | _ => exact .pure _
    next => exact .pure _
  | httpProfileImage user kind file =>
    refine .bind ?_ fun _ => .pure _
    unfold Http.uploadProfileImage
    split
    next kind hkind =>
      split
      . exact .pure _
      next ext mimeType width height hcontent =>
        refine .bind (.storeUploadedBytes ?_ _ _) fun stored => ?_
        . simp [extension, hkind, hcontent, Except.toOption]
        . cases stored with
          | none => exact .pure _
          | some stored => exact .finishProfileImage _ _ _
    next => exact .pure _

theorem not_mem_afterLast {fileName : String} {ext : String} (h : Text.afterLast '.' fileName = some ext)
    : '.' ∉ ext.toList := by
  rw [Text.afterLast] at h
  split at h
  . obtain rfl := Option.some.inj h
    rw [String.toList_ofList]
    intro hmem
    have := List.mem_rtakeWhile_imp hmem
    simp at this
  . contradiction

theorem not_mem_fileExtension (fileName mimeType : String) : '.' ∉ (fileExtension fileName mimeType).toList := by
  unfold fileExtension
  cases h : Text.afterLast '.' fileName with
  | some ext => exact not_mem_afterLast h
  | none =>
    dsimp only [Option.getD_none]
    split
    . decide
    . decide
    . decide
    . decide

theorem decodeRoomIcon_extension {obj : Json} {content : String × String × List UInt8}
    (h : decodeRoomIcon obj = .ok content) : ∃ fileName, content.1 = fileExtension fileName content.2.1 := by
  unfold decodeRoomIcon at h
  generalize sanitizeFilename ((obj.getStr? "filename").getD "room-icon") "room-icon" maxFilenameLen = fileName at h
  dsimp only at h
  split at h
  . cases h
  split at h
  . split at h
    . cases h
    split at h
    . split at h
      . cases h
      . obtain ⟨⟨mimeType, width, height⟩, -, h⟩ := exists_ok_of_bind h
        rw [← Except.ok.inj h]
        exact ⟨fileName, rfl⟩
    . cases h
  . cases h

theorem check_extension {file : UploadedFile} {content : String × String} (h : file.check = .ok content)
    : content.1 = fileExtension file.fileName content.2 := by
  unfold UploadedFile.check at h
  dsimp only at h
  split at h
  . cases h
  split at h
  . cases h
  . obtain ⟨⟨mimeType, width, height⟩, -, h⟩ := exists_ok_of_bind h
    rw [← Except.ok.inj h]

theorem checkImage_extension {file : UploadedFile} {kind : ProfileImageKind} {content : String × String × Nat × Nat}
    (h : file.checkImage kind = .ok content) : content.1 = fileExtension file.fileName content.2.1 := by
  unfold UploadedFile.checkImage at h
  dsimp only at h
  split at h
  . cases h
  split at h
  . cases h
  . obtain ⟨⟨mimeType, width, height⟩, -, h⟩ := exists_ok_of_bind h
    rw [← Except.ok.inj h]

theorem ok_of_toOption {x : Except ε α} {a : α} (h : x.toOption = some a) : x = .ok a := by
  cases x with
  | error err => contradiction
  | ok b => rw [Option.some.inj h]

theorem not_mem_extension {u : Upload} {ext : String} (h : u.extension = some ext) : '.' ∉ ext.toList := by
  cases u with
  | attachment raw =>
    obtain ⟨obj, -, h⟩ := Option.bind_eq_some_iff.1 h
    obtain ⟨content, -, h⟩ := Option.bind_eq_some_iff.1 h
    obtain rfl := Option.some.inj h
    cases hlast : Text.afterLast '.' content.1 with
    | none => decide
    | some ext => exact not_mem_afterLast hlast
  | roomIcon d roomId =>
    obtain ⟨obj, -, h⟩ := Option.bind_eq_some_iff.1 h
    obtain ⟨content, hcontent, h⟩ := Option.bind_eq_some_iff.1 h
    obtain rfl := Option.some.inj h
    obtain ⟨fileName, hext⟩ := decodeRoomIcon_extension (ok_of_toOption hcontent)
    rw [hext]
    exact not_mem_fileExtension _ _
  | httpRoomIcon userId roomId file =>
    obtain ⟨content, hcontent, h⟩ := Option.bind_eq_some_iff.1 h
    obtain rfl := Option.some.inj h
    rw [check_extension (ok_of_toOption hcontent)]
    exact not_mem_fileExtension _ _
  | profileImage raw maxBytes =>
    obtain ⟨obj, -, h⟩ := Option.bind_eq_some_iff.1 h
    obtain ⟨content, -, h⟩ := Option.bind_eq_some_iff.1 h
    obtain rfl := Option.some.inj h
    exact not_mem_fileExtension _ _
  | httpProfileImage user kind file =>
    obtain ⟨kind, -, h⟩ := Option.bind_eq_some_iff.1 h
    obtain ⟨content, hcontent, h⟩ := Option.bind_eq_some_iff.1 h
    obtain rfl := Option.some.inj h
    rw [checkImage_extension (ok_of_toOption hcontent)]
    exact not_mem_fileExtension _ _

end Upload

/--
A stored upload is served if and only if its extension, without the white space around it, is one that the route
accepts. The steps of other requests may come between those of the upload.
-/
theorem servable_stored_iff (u : Upload) {s s' : AppState} {tr : List (Env × Label)}
    (run : Prog.Amid (fun _ _ => True) u.handle s tr () s') {e : Env} {id : String}
    (hstored : (e, .file (.stored id)) ∈ tr) (huuid : IsSimpleUuid e.randomId)
    : Servable id ↔ ∃ ext, u.extension = some ext ∧ IsUploadExtension (Text.trim ext) := by
  obtain ⟨ext, hext, hid⟩ := run.forall_of_spec u.names_handle _ hstored id rfl
  rw [hid, servable_storedId_iff huuid (Upload.not_mem_extension hext)]
  refine ⟨fun h => ⟨ext, hext, h⟩, fun ⟨ext', hext', h⟩ => ?_⟩
  obtain rfl := Option.some.inj (hext.symm.trans hext')
  exact h

deriving instance DecidableEq for FileChange

def attachmentNamed (filename : String) : Upload :=
  .attachment (some (.obj [("dataB64", .str "AA=="), ("filename", .str filename)]))

def uuidEnv : Env := { randomId := "0123456789abcdef0123456789abcdef" }

theorem isSimpleUuid_uuidEnv : IsSimpleUuid uuidEnv.randomId := ⟨rfl, List.all_eq_true.1 (by decide)⟩

theorem exists_amid_of_play {u : Upload} {e : Env} {id : String}
    (h : fileChanges (u.handle.play e {}).1 = [.stored id])
    : ∃ tr s', Prog.Amid (fun _ _ => True) u.handle {} tr () s' ∧ (e, .file (.stored id)) ∈ tr := by
  refine ⟨_, _, (Prog.trace_play e u.handle {}).amid fun _ => trivial, ?_⟩
  have hmem : FileChange.stored id ∈ fileChanges (u.handle.play e {}).1 := by
    rw [h]
    exact List.mem_singleton_self _
  obtain ⟨⟨e', l⟩, hx, hchange⟩ := List.mem_filterMap.1 hmem
  obtain rfl : e' = e := Prog.eq_of_mem_play hx
  cases l with
  | file change =>
    obtain rfl := Option.some.inj hchange
    exact hx
  | _ => contradiction

theorem servable_stored_iff_attachment : Servable "0123456789abcdef0123456789abcdef.png" := by
  obtain ⟨tr, s', run, hstored⟩ := exists_amid_of_play (show fileChanges ((attachmentNamed "photo.png").handle.play
    uuidEnv {}).1 = [.stored "0123456789abcdef0123456789abcdef.png"] by decide +kernel)
  have hext : (attachmentNamed "photo.png").extension = some "png" := by decide +kernel
  exact (servable_stored_iff (attachmentNamed "photo.png") run hstored isSimpleUuid_uuidEnv).2
    ⟨"png", hext, .inr (by decide)⟩

/--
A tilde at the end of the name of an attachment.
-/
theorem not_servable_stored
    : ¬∀ (u : Upload) (s s' : AppState) (tr : List (Env × Label)),
        Prog.Amid (fun _ _ => True) u.handle s tr () s' →
          ∀ e id, (e, .file (.stored id)) ∈ tr → IsSimpleUuid e.randomId → Servable id := by
  intro h
  obtain ⟨tr, s', run, hstored⟩ := exists_amid_of_play (show fileChanges ((attachmentNamed "photo.png~").handle.play
    uuidEnv {}).1 = [.stored "0123456789abcdef0123456789abcdef.png~"] by decide +kernel)
  have hservable := h _ _ _ _ run _ _ hstored isSimpleUuid_uuidEnv
  exact absurd hservable.valid (by decide +kernel)

end Uploads

end Lqxp
