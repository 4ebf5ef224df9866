import Lqxp.Presence.Consistency
import Lqxp.Websocket.Protocol.Lemmas.Profiles

/-!
This module contains the safety of profile patches: when the fields that a patch does not name keep their stored
value.
-/

namespace Lqxp

/--
A request that changes some fields of a profile.
-/
inductive ProfilePatch where
  | settings (sid : String) (d : Json)
  | image (user : AuthenticatedUser) (kind : String) (file : UploadedFile)

def ProfileImageKind.field : ProfileImageKind → ProfileField
  | .avatar => .avatar
  | .banner => .banner

namespace ProfilePatch

/--
The answer is the one of the route, for an upload over HTTP.
-/
def run : ProfilePatch → Proto (Option (Except String Json))
  | .settings sid d => do
    let _ ← updateClientSettings sid d
    return none
  | .image user kind file => do return some (← Http.uploadProfileImage user kind file)

/--
A change of the settings counts when it carries an object and has been confirmed.
-/
def Succeeds (tr : List (Env × Label)) (answer : Option (Except String Json)) : ProfilePatch → Prop
  | .settings sid d => (∃ raw, d.get? "profile" = some raw ∧ raw.isObject) ∧ Confirmed 8 sid tr
  | .image .. => ∃ json, answer = some (.ok json)

def Names (field : ProfileField) : ProfilePatch → Prop
  | .settings _ d => ((d.get? "profile").bind (·.get? field.key)).isSome
  | .image _ kind _ => (ProfileImageKind.parse kind).map (·.field) = some field

instance (field : ProfileField) (patch : ProfilePatch) : Decidable (patch.Names field) :=
  match patch with
  | .settings _ d => inferInstanceAs (Decidable ((d.get? "profile").bind (·.get? field.key)).isSome)
  | .image _ kind _ => inferInstanceAs (Decidable ((ProfileImageKind.parse kind).map (·.field) = some field))

def account (s : AppState) : ProfilePatch → Option String
  | .settings sid _ => (s.players.lookup sid).map (·.userId)
  | .image user _ _ => some user.id

/--
The copy of the profile that the patch is computed against.
-/
def copy (s : AppState) (tr : List (Env × Label)) : ProfilePatch → Option UserProfile
  | .settings sid _ => (s.players.lookup sid).map (·.profile)
  | .image user _ _ => some (s.copyUsed tr user)

/--
The profile has not been written although the request has been confirmed.
-/
def WriteFails (tr : List (Env × Label)) : ProfilePatch → Prop
  | .settings .. => (profileWrite tr).dbFails
  | .image .. => False

variable {s s' : AppState} {tr : List (Env × Label)} {answer : Option (Except String Json)} {patch : ProfilePatch}
  {userId : String} {stored : UserProfile}

theorem same_withImage (profile : UserProfile) (image : ProfileImage) {kind : ProfileImageKind} {field : ProfileField}
    (h : kind.field ≠ field) : field.Same (profile.withImage kind image) profile := by
  cases kind with
  | avatar =>
    cases field with
    | avatar => contradiction
    | _ => rfl
  | banner =>
    cases field with
    | banner => contradiction
    | _ => rfl

theorem storedProfile?_of_succeeds (h : Prog.Trace patch.run s tr answer s') (hok : patch.Succeeds tr answer)
    (haccount : patch.account s = some userId)
    : ∃ copy profile, patch.copy s tr = some copy ∧ (∀ field, ¬ patch.Names field → field.Same profile copy)
        ∧ ((patch.WriteFails tr ∧ s'.storedProfile? userId = s.storedProfile? userId)
          ∨ (¬ patch.WriteFails tr ∧ s'.storedProfile? userId = (s.storedProfile? userId).map fun _ => profile)) := by
  cases patch with
  | settings sid d =>
    obtain ⟨b, s₁, tr₁, tr₂, hrun, hdone, rfl⟩ := Prog.trace_bind_iff.1 h
    obtain ⟨rfl, rfl, rfl⟩ := Prog.trace_done_iff.1 hdone
    rw [List.append_nil] at hok ⊢
    obtain ⟨⟨raw, hraw, hobj⟩, hconfirmed⟩ := hok
    obtain ⟨player, profile, hplayer, hsame, hstored⟩ := trace_updateClientSettings hraw hobj hrun hconfirmed
    obtain rfl : player.userId = userId := by simpa [account, hplayer] using haccount
    refine ⟨player.profile, profile, by simp [copy, hplayer], fun field hnames => hsame field ?_, ?_⟩
    . rw [Names, hraw] at hnames
      exact Option.not_isSome_iff_eq_none.1 hnames
    . rw [hstored, WriteFails]
      split
      next hfails => exact .inl ⟨hfails, rfl⟩
      next hfails => exact .inr ⟨hfails, rfl⟩
  | image user kind file =>
    obtain ⟨json, s₁, tr₁, tr₂, hrun, hdone, rfl⟩ := Prog.trace_bind_iff.1 h
    obtain ⟨rfl, rfl, rfl⟩ := Prog.trace_done_iff.1 hdone
    rw [List.append_nil] at hok ⊢
    obtain rfl : user.id = userId := Option.some.inj haccount
    obtain ⟨answer, hanswer⟩ := hok
    obtain rfl := Option.some.inj hanswer
    rcases trace_uploadProfileImage hrun with ⟨⟨text, htext⟩, -⟩ | ⟨kind', image, hkind, hshares⟩
    . cases htext
    . rcases hshares.outcome with ⟨⟨text, htext⟩, -⟩ | ⟨-, haccounts⟩
      . cases htext
      . refine ⟨s.copyUsed tr₁ user, (s.copyUsed tr₁ user).withImage kind' image, rfl,
          fun field hnames => same_withImage _ image ?_, .inr ⟨not_false, ?_⟩⟩
        . rw [Names, hkind] at hnames
          exact fun h => hnames (congrArg some h)
        . exact storedProfile?_withProfile haccounts

/--
A patch that succeeds keeps the fields that it does not name if and only if the copy that it has been computed against
has them as they are stored, or the write fails.
-/
theorem keepsFields_iff (h : Prog.Trace patch.run s tr answer s') (hok : patch.Succeeds tr answer)
    (haccount : patch.account s = some userId) (hstored : s.storedProfile? userId = some stored)
    : (∃ stored', s'.storedProfile? userId = some stored' ∧ ∀ field, ¬ patch.Names field → field.Same stored' stored)
        ↔ patch.WriteFails tr
          ∨ ∀ field copy, ¬ patch.Names field → patch.copy s tr = some copy → field.Same copy stored := by
  obtain ⟨copy, profile, hcopy, hsame, ⟨hfails, hstored'⟩ | ⟨hwritten, hstored'⟩⟩ :=
    storedProfile?_of_succeeds h hok haccount
  . refine iff_of_true ⟨stored, hstored'.trans hstored, fun field _ => ?_⟩ (.inl hfails)
    cases field with
    | _ => rfl
  . rw [hstored, Option.map_some] at hstored'
    rw [hstored', or_iff_right hwritten]
    constructor
    . rintro ⟨stored', ⟨rfl⟩, hkept⟩ field copy' hnames hcopy'
      obtain rfl := Option.some.inj (hcopy.symm.trans hcopy')
      exact (hsame field hnames).symm.trans (hkept field hnames)
    . intro hkept
      exact ⟨profile, rfl, fun field hnames => (hsame field hnames).trans (hkept field copy hnames hcopy)⟩

def patchRequest (key text : String) : Json := .obj [("profile", .obj [(key, .str text)])]

/--
The stored profile, the copy of a session, and the stored profile after a patch by the session, with whether the patch
has been confirmed and written.
-/
def profilesAround (sid : String) (d : Json) (s : AppState)
    : Option UserProfile × Option UserProfile × Option UserProfile × Bool :=
  let (tr, _, s') := (settings sid d).run.play .calm s
  (s.storedProfile? "1", (s.players.lookup sid).bind fun player => if player.userId = "1" then player.profile else none,
    s'.storedProfile? "1", (queued tr).any fun m => m.1 = sid && isOk 8 m.2)

theorem exists_patch {script : List (PresenceRequest × Env)} {sid key text : String} {stored copy stored' : UserProfile}
    (h : ((Prog.Served.playAll PresenceRequest.handle (fun _ _ _ => true) script twoUsers).map (·.2)).bind
      (fun s => some (profilesAround sid (patchRequest key text) s))
      = some (some stored, some copy, some stored', true))
    : ∃ log s tr answer s', Prog.Served PresenceRequest.handle (fun _ _ _ => True) twoUsers log s
        ∧ Prog.Trace (settings sid (patchRequest key text)).run s tr answer s'
        ∧ (settings sid (patchRequest key text)).Succeeds tr answer
        ∧ (settings sid (patchRequest key text)).account s = some "1"
        ∧ (settings sid (patchRequest key text)).copy s tr = some copy
        ∧ s.storedProfile? "1" = some stored ∧ s'.storedProfile? "1" = some stored' := by
  obtain ⟨log, s, hserved, hvalues⟩ := Prog.Served.exists_of_playAll h
  have hrun := Prog.trace_play .calm (settings sid (patchRequest key text)).run s
  unfold profilesAround at hvalues
  generalize (settings sid (patchRequest key text)).run.play .calm s = result at hrun hvalues
  obtain ⟨tr, answer, s'⟩ := result
  simp only [Option.some.injEq, Prod.mk.injEq] at hvalues
  obtain ⟨hstored, hcopy, hstored', hconfirmed⟩ := hvalues
  obtain ⟨player, hplayer, hprofile⟩ := Option.bind_eq_some_iff.1 hcopy
  obtain ⟨huser, hprofile⟩ := Option.ite_none_right_eq_some.1 hprofile
  obtain ⟨⟨sid', payload⟩, hmem, hok⟩ := List.any_eq_true.1 hconfirmed
  obtain ⟨hsid, hpositive⟩ := Bool.and_eq_true_iff.1 hok
  obtain rfl := of_decide_eq_true hsid
  refine ⟨log, s, tr, answer, s', hserved.mono fun _ _ _ _ => trivial, hrun, ?_, ?_, ?_, hstored, hstored'⟩
  . exact ⟨⟨.obj [(key, .str text)], rfl, rfl⟩, payload, hmem, hpositive⟩
  . rw [account, hplayer, Option.map_some, huser]
  . rw [ProfilePatch.copy, hplayer, Option.map_some]
    exact hprofile

/--
An account with one device, which patches its profile.
-/
def oneDeviceScript : List (PresenceRequest × Env) :=
  [(.connect "phone", .calm), (.identify "phone" (tokenRequest "a"), .calm),
    (.settings "phone" (patchRequest "pronouns" "she/her"), .calm)]

/--
The other device of the account patches the profile.
-/
def otherDeviceScript : List (PresenceRequest × Env) :=
  [(.connect "phone", .calm), (.identify "phone" (tokenRequest "a"), .calm),
    (.connect "laptop", .calm), (.identify "laptop" (tokenRequest "a"), .calm),
    (.settings "laptop" (patchRequest "pronouns" "she/her"), .calm)]

theorem keepsFields_iff_oneDevice
    : ∃ s tr answer s' stored', Prog.Trace (settings "phone" (patchRequest "description" "hi")).run s tr answer s'
        ∧ s.storedProfile? "1" = some { pronouns := "she/her" } ∧ s'.storedProfile? "1" = some stored'
        ∧ stored'.pronouns = "she/her" := by
  have hplay : ((Prog.Served.playAll PresenceRequest.handle (fun _ _ _ => true) oneDeviceScript twoUsers).map
      (·.2)).bind (fun s => some (profilesAround "phone" (patchRequest "description" "hi") s))
      = some (some { pronouns := "she/her" }, some { pronouns := "she/her" },
        some { pronouns := "she/her", description := "hi" }, true) := by decide +kernel
  obtain ⟨log, s, tr, answer, s', -, hrun, hok, haccount, hcopy, hstored, -⟩ := exists_patch hplay
  obtain ⟨stored', hstored', hkept⟩ := (keepsFields_iff hrun hok haccount hstored).2 <| .inr fun field copy _ hcopy' => by
    obtain rfl := Option.some.inj (hcopy.symm.trans hcopy')
    cases field with
    | _ => rfl
  exact ⟨s, tr, answer, s', stored', hrun, hstored, hstored', hkept .pronouns (by decide)⟩

/--
The copy of the phone does not have the pronouns that the laptop has set.
-/
theorem not_keepsFields
    : ¬∀ start s log, start.players = ∅ → Prog.Served PresenceRequest.handle (fun _ _ _ => True) start log s →
        ∀ (patch : ProfilePatch) tr answer s' userId stored, Prog.Trace patch.run s tr answer s' →
          patch.Succeeds tr answer → patch.account s = some userId → s.storedProfile? userId = some stored →
            ∃ stored', s'.storedProfile? userId = some stored'
              ∧ ∀ field, ¬ patch.Names field → field.Same stored' stored := by
  intro hall
  have hplay : ((Prog.Served.playAll PresenceRequest.handle (fun _ _ _ => true) otherDeviceScript twoUsers).map
      (·.2)).bind (fun s => some (profilesAround "phone" (patchRequest "description" "hi") s))
      = some (some { pronouns := "she/her" }, some {}, some { description := "hi" }, true) := by decide +kernel
  obtain ⟨log, s, tr, answer, s', hserved, hrun, hok, haccount, -, hstored, hstored'⟩ := exists_patch hplay
  obtain ⟨profile, hprofile, hkept⟩ := hall twoUsers s log rfl hserved _ tr answer s' "1" _ hrun hok haccount hstored
  obtain rfl := Option.some.inj (hstored'.symm.trans hprofile)
  have hpronouns : "" = "she/her" := hkept .pronouns (by decide)
  exact absurd hpronouns (by decide)

end ProfilePatch

end Lqxp
