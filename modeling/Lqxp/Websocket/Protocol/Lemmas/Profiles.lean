import Lqxp.Websocket.Protocol.Lemmas.Replies
import Lqxp.Websocket.Protocol.Lemmas.Traces
import Lqxp.Websocket.Protocol.Lemmas.Uploads

/-!
This module contains what uninterrupted runs of the requests that change profiles do to the tables and to the
upload directory.
-/

namespace Lqxp

def AccountDatabase.withProfile (accounts : AccountDatabase) (userId : String) (profile : UserProfile)
    : AccountDatabase :=
  { accounts with users := accounts.users.modify userId fun user => { user with profile } }

theorem AccountDatabase.lookup_withProfile (accounts : AccountDatabase) (userId : String) (profile : UserProfile)
    : (accounts.withProfile userId profile).users.lookup userId
        = (accounts.users.lookup userId).map fun user => { user with profile } :=
  AssocMap.lookup_modify_self userId _ accounts.users

section Runs

variable {s s' : AppState} {tr : List (Env × Label)} {userId : String} {profile : UserProfile}

theorem trace_updateProfile {written : Bool} (h : Prog.Trace (updateProfile userId profile) s tr written s')
    : ∃ e, tr = [(e, .quiet)] ∧ written = !e.dbFails ∧ s'.uploads = s.uploads
        ∧ s'.accounts = if written then s.accounts.withProfile userId profile else s.accounts := by
  obtain ⟨e, rfl, rfl, rfl⟩ := Prog.trace_atom_iff.1 h
  refine ⟨e, ?_⟩
  cases e.dbFails with
  | true => exact ⟨rfl, rfl, rfl, rfl⟩
  | false => exact ⟨rfl, rfl, rfl, rfl⟩

theorem trace_removeProfileImage {image : Option ProfileImage} {u : Unit}
    (h : Prog.Trace (removeProfileImage image) s tr u s')
    : Unlinks (image.map (·.file.id)) s tr s' ∧ s'.accounts = s.accounts := by
  cases image with
  | none =>
    obtain ⟨rfl, -, rfl⟩ := Prog.trace_done_iff.1 h
    exact ⟨.of_nothing _ _, rfl⟩
  | some image => exact trace_removeUploadedFile h

end Runs

section Uploads

variable {s s' : AppState} {tr : List (Env × Label)} {user : AuthenticatedUser} {kind : ProfileImageKind}
  {image : ProfileImage} {answer : Except String Json}

/--
The profile that an upload over HTTP takes for the one of the account: a copy that a session gives, when there is
one. The second step of the run picks it.
-/
def AppState.copyUsed (s : AppState) (tr : List (Env × Label)) (user : AuthenticatedUser) : UserProfile :=
  s.profileCopy ((tr[1]?.map (·.1)).getD .calm) user.id user.profile

/--
What an upload does that gets as far as to the storing of the file.
-/
structure SharesImage (user : AuthenticatedUser) (kind : ProfileImageKind) (image : ProfileImage) (s : AppState)
    (tr : List (Env × Label)) (answer : Except String Json) (s' : AppState) : Prop where
  stored (id : String) : .stored id ∈ fileChanges tr ↔ id = image.file.id
  uploads (id : String)
    : id ∈ s'.uploads ↔ (id ∈ s.uploads ∨ .stored id ∈ fileChanges tr) ∧ .removed id ∉ fileChanges tr
  removed (id : String) : .removed id ∈ fileChanges tr → (user.profile.image kind).map (·.file.id) = some id
  outcome : ((∃ text, answer = .error text) ∧ s'.accounts = s.accounts)
    ∨ ((∃ json, answer = .ok json)
      ∧ s'.accounts = s.accounts.withProfile user.id ((s.copyUsed tr user).withImage kind image))

theorem trace_finishProfileImage {s₀ : AppState} {e₀ : Env}
    (huploads : ∀ id, id ∈ s.uploads ↔ id ∈ s₀.uploads ∨ id = image.file.id) (haccounts : s.accounts = s₀.accounts)
    (hplayers : s.players = s₀.players) (h : Prog.Trace (Http.finishProfileImage user kind image) s tr answer s')
    : SharesImage user kind image s₀ ((e₀, .file (.stored image.file.id)) :: tr) answer s' := by
  obtain ⟨shared, s₁, tr₁, tr₂, hshare, hrest, rfl⟩ := Prog.trace_bind_iff.1 h
  obtain ⟨e, rfl, rfl, rfl⟩ := Prog.trace_atom_iff.1 hshare
  obtain ⟨u, s₂, tr₃, tr₄, hremove, hrest', rfl⟩ := Prog.trace_bind_iff.1 hrest
  obtain ⟨hunlinks, haccounts'⟩ := trace_removeProfileImage hremove
  obtain ⟨written, s₃, tr₅, tr₆, hwrite, hanswer, rfl⟩ := Prog.trace_bind_iff.1 hrest'
  obtain ⟨e', rfl, hwritten, huploads', haccounts''⟩ := trace_updateProfile hwrite
  have hend : SameFiles s₃ s' ∧ fileChanges tr₆ = []
      ∧ ((∃ text, answer = .error text) ∧ written = false ∨ (∃ json, answer = .ok json) ∧ written = true) := by
    cases written with
    | false =>
      obtain ⟨rfl, rfl, rfl⟩ := Prog.trace_done_iff.1 hanswer
      exact ⟨.refl _, rfl, .inl ⟨⟨_, rfl⟩, rfl⟩⟩
    | true =>
      obtain ⟨u', s₄, tr₇, tr₈, hbroadcast, hdone, rfl⟩ := Prog.trace_bind_iff.1 hanswer
      obtain ⟨rfl, rfl, rfl⟩ := Prog.trace_done_iff.1 hdone
      obtain ⟨hsame, hfiles, -⟩ := (Aside.broadcastProfileUpdate _ _).trace hbroadcast
      exact ⟨hsame, by rw [List.append_nil]; exact hfiles, .inr ⟨⟨_, rfl⟩, rfl⟩⟩
  obtain ⟨hsame, hfiles, hanswer'⟩ := hend
  have hchanges : fileChanges ((e₀, .file (.stored image.file.id)) :: ([(e, .quiet)] ++ (tr₃ ++ ([(e', .quiet)] ++ tr₆))))
      = .stored image.file.id :: fileChanges tr₃ := by
    show _ :: fileChanges (tr₃ ++ ([(e', .quiet)] ++ tr₆)) = _
    rw [fileChanges_append, fileChanges_append, hfiles]
    exact congrArg _ (List.append_nil _)
  have hcopy : s.profileCopy e user.id user.profile = s₀.profileCopy e user.id user.profile := by
    rw [AppState.profileCopy, AppState.profileCopy, hplayers]
  refine ⟨fun id => ?_, fun id => ?_, fun id hid => ?_, ?_⟩
  . rw [hchanges, List.mem_cons, or_iff_left (hunlinks.stored id), FileChange.stored.injEq]
  . rw [hchanges, hsame.uploads, huploads', hunlinks.uploads]
    simp [huploads, hunlinks.stored]
  . rw [hchanges, List.mem_cons] at hid
    exact hunlinks.removed id (hid.resolve_left nofun)
  . rcases hanswer' with ⟨herror, rfl⟩ | ⟨hok, rfl⟩
    . exact .inl ⟨herror, hsame.accounts.trans (haccounts''.trans (haccounts'.trans haccounts))⟩
    . refine .inr ⟨hok, hsame.accounts.trans (haccounts''.trans ?_)⟩
      rw [haccounts']
      show s.accounts.withProfile _ ((s.profileCopy e user.id user.profile).withImage kind image) = _
      rw [haccounts, hcopy]
      rfl

theorem trace_uploadProfileImage {name : String} {file : UploadedFile}
    (h : Prog.Trace (Http.uploadProfileImage user name file) s tr answer s')
    : ((∃ text, answer = .error text) ∧ SameFiles s s' ∧ fileChanges tr = [])
        ∨ ∃ kind image, ProfileImageKind.parse name = some kind ∧ SharesImage user kind image s tr answer s' := by
  have hrefused {text : String} (h : Prog.Trace (pure (.error text)) s tr answer s')
      : ((∃ text, answer = .error text) ∧ SameFiles s s' ∧ fileChanges tr = []) := by
    obtain ⟨rfl, rfl, rfl⟩ := Prog.trace_done_iff.1 h
    exact ⟨⟨text, rfl⟩, .refl _, rfl⟩
  unfold Http.uploadProfileImage at h
  split at h
  next kind hkind =>
    split at h
    . exact .inl (hrefused h)
    next extension mimeType width height _ =>
      obtain ⟨stored, s₁, tr₁, tr₂, hstore, hrest, rfl⟩ := Prog.trace_bind_iff.1 h
      obtain ⟨e, ⟨rfl, rfl, rfl⟩ | ⟨stored, rfl, rfl, rfl⟩⟩ := trace_storeUploadedBytes hstore
      . obtain ⟨rfl, rfl, rfl⟩ := Prog.trace_done_iff.1 hrest
        exact .inl ⟨⟨_, rfl⟩, .refl _, rfl⟩
      . have hshares : SharesImage user kind { file := stored, width, height } s
            ((e, .file (.stored stored.id)) :: tr₂) answer s' := by
          refine trace_finishProfileImage ?_ ?_ ?_ hrest
          . exact fun id => mem_insertUpload
          . rfl
          . rfl
        exact .inr ⟨kind, _, hkind, hshares⟩
  next => exact .inl (hrefused h)

end Uploads

/--
The fields of a profile.
-/
inductive ProfileField where
  | avatar
  | banner
  | description
  | pronouns
  | links
  | customStatus
  | activity
  deriving DecidableEq

namespace ProfileField

def key : ProfileField → String
  | avatar => "avatar"
  | banner => "banner"
  | description => "description"
  | pronouns => "pronouns"
  | links => "links"
  | customStatus => "customStatus"
  | activity => "activity"

/--
Two profiles have the same value in the field.
-/
def Same (profile profile' : UserProfile) : ProfileField → Prop
  | avatar => profile.avatar = profile'.avatar
  | banner => profile.banner = profile'.banner
  | description => profile.description = profile'.description
  | pronouns => profile.pronouns = profile'.pronouns
  | links => profile.links = profile'.links
  | customStatus => profile.customStatus = profile'.customStatus
  | activity => profile.activity = profile'.activity

theorem Same.symm {field : ProfileField} {profile profile' : UserProfile} (h : field.Same profile profile')
    : field.Same profile' profile := by
  cases field with
  | _ => exact Eq.symm h

theorem Same.trans {field : ProfileField} {profile profile' profile'' : UserProfile}
    (h : field.Same profile profile') (h' : field.Same profile' profile'') : field.Same profile profile'' := by
  cases field with
  | _ => exact Eq.trans h h'

end ProfileField

section Parsing

variable {s s' s'' : AppState} {tr tr' : List (Env × Label)} {current profile : UserProfile} {raw : Json}

theorem exists_ok_of_bind {x : Except ε α} {f : α → Except ε β} {b : β} (h : (x >>= f) = .ok b)
    : ∃ a, x = .ok a ∧ f a = .ok b := by
  cases x with
  | error err => contradiction
  | ok a => exact ⟨a, rfl, h⟩

theorem parseProfileFields_same (h : parseProfileFields current raw = .ok profile) (field : ProfileField)
    (hkey : raw.get? field.key = none) : field.Same profile current := by
  unfold parseProfileFields at h
  dsimp only at h
  -- however the activity is given, the other fields are parsed in the same way
  split at h <;> obtain ⟨activity, hactivity, hprofile⟩ := exists_ok_of_bind h <;>
    obtain rfl := Except.ok.inj hprofile <;> cases field <;>
    simp_all [ProfileField.Same, ProfileField.key]
  exact (Except.ok.inj hactivity).symm

/--
The parsing of a profile stores at most files, and says nothing.
-/
structure StoresFiles (s : AppState) (tr : List (Env × Label)) (s' : AppState) : Prop where
  accounts : s'.accounts = s.accounts
  players : s'.players = s.players
  queued : queued tr = []

theorem StoresFiles.append (h : StoresFiles s tr s') (h' : StoresFiles s' tr' s'')
    : StoresFiles s (tr ++ tr') s'' :=
  ⟨h'.accounts.trans h.accounts, h'.players.trans h.players, by rw [queued_append, h.queued, h'.queued]; rfl⟩

theorem trace_parseProfileImage {value : Option Json} {maxBytes : Nat} {result : Except String (Option ProfileImage)}
    (h : Prog.Trace (parseProfileImage value maxBytes) s tr result s')
    : StoresFiles s tr s' ∧ ((∃ image, result = .ok image) → tr.length = (fileChanges tr).length) := by
  have hpure {a : Except String (Option ProfileImage)} (h : Prog.Trace (pure a) s tr result s')
      : StoresFiles s tr s' ∧ ((∃ image, result = .ok image) → tr.length = (fileChanges tr).length) := by
    obtain ⟨rfl, -, rfl⟩ := Prog.trace_done_iff.1 h
    exact ⟨⟨rfl, rfl, rfl⟩, fun _ => rfl⟩
  unfold parseProfileImage at h
  split at h
  . split at h
    . exact hpure h
    . obtain ⟨stored, s₁, tr₁, tr₂, hstore, hrest, rfl⟩ := Prog.trace_bind_iff.1 h
      obtain ⟨e, ⟨rfl, rfl, rfl⟩ | ⟨stored, rfl, rfl, rfl⟩⟩ := trace_storeUploadedBytes hstore
      . obtain ⟨rfl, rfl, rfl⟩ := Prog.trace_done_iff.1 hrest
        exact ⟨⟨rfl, rfl, rfl⟩, fun ⟨_, h⟩ => nomatch h⟩
      . obtain ⟨rfl, -, rfl⟩ := Prog.trace_done_iff.1 hrest
        exact ⟨⟨rfl, rfl, rfl⟩, fun _ => rfl⟩
  . exact hpure h

theorem trace_parseImageField {key : String} {maxBytes : Nat} {old : Option ProfileImage}
    {result : Except String (Option ProfileImage)}
    (h : Prog.Trace (parseImageField raw key maxBytes old) s tr result s')
    : StoresFiles s tr s' ∧ ((∃ image, result = .ok image) → tr.length = (fileChanges tr).length)
        ∧ (raw.get? key = none → result = .ok old) := by
  unfold parseImageField at h
  split at h
  next value hvalue =>
    obtain ⟨hstores, hlength⟩ := trace_parseProfileImage h
    refine ⟨hstores, hlength, fun hnone => ?_⟩
    rw [hnone] at hvalue
    contradiction
  next =>
    obtain ⟨rfl, rfl, rfl⟩ := Prog.trace_done_iff.1 h
    exact ⟨⟨rfl, rfl, rfl⟩, fun _ => rfl, fun _ => rfl⟩

theorem trace_parseUserProfile {result : Except String UserProfile} (hraw : raw.isObject)
    (h : Prog.Trace (parseUserProfile current (some raw)) s tr result s')
    : StoresFiles s tr s' ∧ ∀ profile, result = .ok profile → tr.length = (fileChanges tr).length
        ∧ ∀ field : ProfileField, raw.get? field.key = none → field.Same profile current := by
  have hnull : raw.isNull = false := by
    cases raw with
    | obj => rfl
    | _ => contradiction
  unfold parseUserProfile at h
  simp only [hnull, hraw, Bool.false_eq_true, if_false, Bool.not_true] at h
  obtain ⟨avatar, s₁, tr₁, tr₂, havatar, hrest, rfl⟩ := Prog.trace_bind_iff.1 h
  obtain ⟨hstores, hlength, hsame⟩ := trace_parseImageField havatar
  cases avatar with
  | error text =>
    obtain ⟨rfl, rfl, rfl⟩ := Prog.trace_done_iff.1 hrest
    rw [List.append_nil]
    exact ⟨hstores, fun _ h => nomatch h⟩
  | ok avatar =>
  obtain ⟨banner, s₂, tr₃, tr₄, hbanner, hrest', rfl⟩ := Prog.trace_bind_iff.1 hrest
  obtain ⟨hstores', hlength', hsame'⟩ := trace_parseImageField hbanner
  cases banner with
  | error text =>
    obtain ⟨rfl, rfl, rfl⟩ := Prog.trace_done_iff.1 hrest'
    rw [List.append_nil]
    exact ⟨hstores.append hstores', fun _ h => nomatch h⟩
  | ok banner =>
    cases hfields : parseProfileFields current raw with
    | error text =>
      simp only [hfields] at hrest'
      obtain ⟨rfl, rfl, rfl⟩ := Prog.trace_done_iff.1 hrest'
      rw [List.append_nil]
      exact ⟨hstores.append hstores', fun _ h => nomatch h⟩
    | ok profile =>
      simp only [hfields] at hrest'
      obtain ⟨rfl, rfl, rfl⟩ := Prog.trace_done_iff.1 hrest'
      rw [List.append_nil]
      refine ⟨hstores.append hstores', ?_⟩
      rintro _ ⟨rfl⟩
      refine ⟨?_, fun field hkey => ?_⟩
      . rw [fileChanges_append, List.length_append, List.length_append, hlength ⟨_, rfl⟩, hlength' ⟨_, rfl⟩]
      . cases field with
        | avatar => exact Except.ok.inj (hsame hkey)
        | banner => exact Except.ok.inj (hsame' hkey)
        | description => exact parseProfileFields_same hfields .description hkey
        | pronouns => exact parseProfileFields_same hfields .pronouns hkey
        | links => exact parseProfileFields_same hfields .links hkey
        | customStatus => exact parseProfileFields_same hfields .customStatus hkey
        | activity => exact parseProfileFields_same hfields .activity hkey

end Parsing

namespace Aside

theorem broadcastSyncPeerEvent (userId event clientId platform : String) (exclude : Option String)
    : Aside (broadcastSyncPeerEvent userId event clientId platform exclude) := by
  unfold Lqxp.broadcastSyncPeerEvent
  split
  . exact .pure _
  . exact .atom fun _ s => ⟨rfl, .refl s⟩

theorem announceProfileAll (player : PlayerSession) (rooms : List String)
    : Aside (announceProfileAll player rooms) := by
  induction rooms with
  | nil => exact .pure _
  | cons gameId rooms ih => exact .bind (.bind (.look _) fun _ => .broadcastToRoom _ _) fun _ => ih

theorem announceStatusAll (player : PlayerSession) (wasVoiceChat : Bool) (rooms : List String)
    : Aside (announceStatusAll player wasVoiceChat rooms) := by
  induction rooms with
  | nil => exact .pure _
  | cons gameId rooms ih =>
    refine .bind (.bind (.look _) fun _ => .bind (.broadcastToRoom _ _) fun _ => ?_) fun _ => ih
    split
    . exact .broadcastToRoom _ _
    . exact .pure _

theorem announceSyncPeer (sid : String) (old player : PlayerSession) : Aside (announceSyncPeer sid old player) := by
  unfold Lqxp.announceSyncPeer
  split
  . exact .broadcastSyncPeerEvent _ _ _ _ _
  . split
    . exact .broadcastSyncPeerEvent _ _ _ _ _
    . exact .pure _

end Aside

def AppState.storedProfile? (s : AppState) (userId : String) : Option UserProfile :=
  (s.accounts.users.lookup userId).map (·.profile)

section Settings

variable {s s' : AppState} {tr : List (Env × Label)} {sid userId : String} {d : Json}

theorem storedProfile?_withProfile {profile : UserProfile}
    (haccounts : s'.accounts = s.accounts.withProfile userId profile)
    : s'.storedProfile? userId = (s.storedProfile? userId).map fun _ => profile := by
  rw [AppState.storedProfile?, AppState.storedProfile?, haccounts, AccountDatabase.lookup_withProfile, Option.map_map,
    Option.map_map]
  rfl

theorem trace_persistStatus {player : PlayerSession} {changed : Bool} {u : Unit}
    (h : Prog.Trace (persistStatus player changed) s tr u s')
    : fileChanges tr = [] ∧ ∀ userId, s'.storedProfile? userId = s.storedProfile? userId := by
  unfold persistStatus at h
  split at h
  . obtain ⟨written, s₁, tr₁, tr₂, hwrite, hdone, rfl⟩ := Prog.trace_bind_iff.1 h
    obtain ⟨rfl, -, rfl⟩ := Prog.trace_done_iff.1 hdone
    obtain ⟨e, rfl, -, rfl⟩ := Prog.trace_atom_iff.1 hwrite
    split
    . exact ⟨rfl, fun _ => rfl⟩
    . refine ⟨rfl, fun userId => ?_⟩
      rw [AppState.storedProfile?, AppState.storedProfile?, AssocMap.lookup_modify]
      split
      . rw [Option.map_map]
        rfl
      . rfl
  . obtain ⟨rfl, -, rfl⟩ := Prog.trace_done_iff.1 h
    exact ⟨rfl, fun _ => rfl⟩

theorem trace_completeSettings {profile : UserProfile} {status : Option UserPresenceStatus} {old player : PlayerSession}
    {b : Bool} (h : Prog.Trace (completeSettings sid d (some profile) status old player) s tr b s')
    : ∃ e rest, tr = (e, .quiet) :: rest ∧ fileChanges rest = []
        ∧ s'.storedProfile? player.userId
          = if e.dbFails then s.storedProfile? player.userId
            else (s.storedProfile? player.userId).map fun _ => player.profile := by
  obtain ⟨u, s₁, tr₁, tr₂, hprofile, hrest, rfl⟩ := Prog.trace_bind_iff.1 h
  obtain ⟨written, s₂, tr₃, tr₄, hwrite, hdone, rfl⟩ := Prog.trace_bind_iff.1 hprofile
  obtain ⟨rfl, -, rfl⟩ := Prog.trace_done_iff.1 hdone
  obtain ⟨e, rfl, rfl, -, haccounts⟩ := trace_updateProfile hwrite
  obtain ⟨u', s₃, tr₅, tr₆, hstatus, hrest', rfl⟩ := Prog.trace_bind_iff.1 hrest
  obtain ⟨hfiles, hstored⟩ := trace_persistStatus hstatus
  have htail : SameFiles s₃ s' ∧ fileChanges tr₆ = [] ∧ ∀ roomId, ¬ HasWritten roomId tr₆ := by
    refine Aside.trace ?_ hrest'
    exact .bind (.respondOk _ _ _ _) fun _ => .bind (.announceProfileAll _ _) fun _ =>
      .bind (.announceStatusAll _ _ _) fun _ => .bind (.announceSyncPeer _ _ _) fun _ => .pure _
  obtain ⟨hsame, hfiles', -⟩ := htail
  refine ⟨e, tr₅ ++ tr₆, rfl, by rw [fileChanges_append, hfiles, hfiles']; rfl, ?_⟩
  rw [AppState.storedProfile?, hsame.accounts]
  refine (hstored _).trans ?_
  cases hfails : e.dbFails with
  | true =>
    rw [hfails] at haccounts
    rw [AppState.storedProfile?, haccounts]
    rfl
  | false =>
    rw [hfails] at haccounts
    rw [storedProfile?_withProfile haccounts, if_neg Bool.false_ne_true]

/--
The request has been answered with a confirmation.
-/
def Confirmed (op : Nat) (sid : String) (tr : List (Env × Label)) : Prop :=
  ∃ payload, (sid, payload) ∈ queued tr ∧ isOk op payload

theorem not_confirmed_respondError {op op' : Nat} {text : String} {reqId : Option String} {b : Bool}
    (h : Prog.Trace (respondError sid op' text reqId) s tr b s') : ¬ Confirmed op sid tr := by
  rintro ⟨payload, hmem, hok⟩
  obtain ⟨e, rfl, -⟩ := trace_respondError h
  rw [queued_cons, queued_nil, List.append_nil] at hmem
  obtain ⟨-, rfl⟩ := Prod.mk.inj (AppState.mem_queued_replyLabel hmem)
  rw [isOk_withRequestId] at hok
  simp [isOk, message, Json.get?, Json.getBool?, List.lookup_cons] at hok

theorem confirmed_append {op : Nat} {tr' : List (Env × Label)} (hquiet : queued tr = [])
    : Confirmed op sid (tr ++ tr') ↔ Confirmed op sid tr' := by
  rw [Confirmed, queued_append, hquiet, List.nil_append]
  rfl

/--
The step of a change of the settings that writes the profile: the steps before it are the one of the rate limit, the
one that reads the copy of the session, one for each image, and the one that changes the session.
-/
def profileWrite (tr : List (Env × Label)) : Env := (tr[3 + (fileChanges tr).length]?.map (·.1)).getD .calm

theorem profileWrite_eq {e₁ e₂ e₃ e₄ : Env} {rest : List (Env × Label)} (hlength : tr.length = (fileChanges tr).length)
    (hfiles : fileChanges rest = [])
    : profileWrite ([(e₁, .quiet)] ++ ([(e₂, .quiet)] ++ (tr ++ ([(e₃, .quiet)] ++ (e₄, .quiet) :: rest)))) = e₄ := by
  have hchanges : fileChanges (tr ++ ((e₃, .quiet) :: (e₄, .quiet) :: rest)) = fileChanges tr := by
    rw [fileChanges_append]
    show fileChanges tr ++ fileChanges rest = _
    rw [hfiles, List.append_nil]
  have hat : (tr ++ ((e₃, .quiet) :: (e₄, .quiet) :: rest))[tr.length + 1]? = some (e₄, .quiet) := by
    rw [List.getElem?_append_right (Nat.le_add_right _ _), Nat.add_sub_cancel_left]
    rfl
  rw [profileWrite]
  show ((((e₁, .quiet) :: (e₂, .quiet) :: (tr ++ ((e₃, .quiet) :: (e₄, .quiet) :: rest)))[3 + (fileChanges
    (tr ++ ((e₃, .quiet) :: (e₄, .quiet) :: rest))).length]?).map (·.1)).getD .calm = e₄
  rw [hchanges, ← hlength, show 3 + tr.length = tr.length + 1 + 1 + 1 by omega, List.getElem?_cons_succ,
    List.getElem?_cons_succ, hat]
  rfl

theorem applySettings_userId (d : Json) (profile : Option UserProfile) (status : Option UserPresenceStatus)
    (player : PlayerSession) : (player.applySettings d profile status).userId = player.userId := by
  unfold PlayerSession.applySettings
  split <;> rfl

theorem applySettings_profile (d : Json) (profile : UserProfile) (status : Option UserPresenceStatus)
    (player : PlayerSession) : (player.applySettings d (some profile) status).profile = profile := by
  unfold PlayerSession.applySettings
  split <;> rfl

theorem trace_updateClientSettings {raw : Json} {b : Bool} (hraw : d.get? "profile" = some raw) (hobj : raw.isObject)
    (h : Prog.Trace (updateClientSettings sid d) s tr b s') (hok : Confirmed 8 sid tr)
    : ∃ player profile, s.players.lookup sid = some player
        ∧ (∀ field : ProfileField, raw.get? field.key = none → field.Same profile player.profile)
        ∧ s'.storedProfile? player.userId
          = if (profileWrite tr).dbFails then s.storedProfile? player.userId
            else (s.storedProfile? player.userId).map fun _ => profile := by
  obtain ⟨limited, s₁, tr₁, tr₂, hlimit, hrest, rfl⟩ := Prog.trace_bind_iff.1 h
  obtain ⟨e₁, rfl, -, rfl⟩ := trace_hitRateLimit hlimit
  rw [confirmed_append rfl] at hok
  split at hrest
  . exact absurd hok (not_confirmed_respondError hrest)
  obtain ⟨current, s₂, tr₃, tr₄, hread, hrest₁, rfl⟩ := Prog.trace_bind_iff.1 hrest
  obtain ⟨e₂, rfl, rfl, rfl⟩ := trace_look hread
  rw [confirmed_append rfl] at hok
  obtain ⟨result, s₃, tr₅, tr₆, hparse, hrest₂, rfl⟩ := Prog.trace_bind_iff.1 hrest₁
  rw [hraw] at hparse
  obtain ⟨hstores, hparsed⟩ := trace_parseUserProfile hobj hparse
  rw [confirmed_append hstores.queued] at hok
  cases result with
  | error text => exact absurd hok (not_confirmed_respondError hrest₂)
  | ok profile =>
  obtain ⟨hlength, hsame⟩ := hparsed profile rfl
  obtain ⟨outcome, s₄, tr₇, tr₈, hchange, hrest₃, rfl⟩ := Prog.trace_bind_iff.1 hrest₂
  obtain ⟨e₃, rfl, rfl, rfl⟩ := Prog.trace_atom_iff.1 hchange
  cases hplayer : s₃.players.lookup sid with
  | none =>
    simp only [hplayer] at hrest₃ hok
    rw [confirmed_append rfl] at hok
    exact absurd hok (not_confirmed_respondError hrest₃)
  | some player =>
    simp only [hplayer, hraw, Option.map_some] at hrest₃ ⊢
    obtain ⟨e₄, rest, rfl, hfiles, hstored⟩ := trace_completeSettings hrest₃
    have hlookup : s.players.lookup sid = some player := hstores.players ▸ hplayer
    rw [applySettings_userId, applySettings_profile] at hstored
    have haccounts : s₃.storedProfile? player.userId = s.storedProfile? player.userId := by
      rw [AppState.storedProfile?, hstores.accounts]
      rfl
    refine ⟨player, profile, hlookup, fun field hkey => ?_, ?_⟩
    . have hcopy := hsame field hkey
      rwa [hlookup] at hcopy
    . rw [profileWrite_eq hlength hfiles, ← haccounts]
      exact hstored

end Settings

end Lqxp
