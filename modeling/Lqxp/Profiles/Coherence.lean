import Lqxp.Accounts.Lemmas.Rows
import Lqxp.Profiles.Effects
import Lqxp.Profiles.Requests

/-!
This module contains what a request for public profiles answers, and the coherence of the cache of public profiles over
sequences of requests: when the services that change profiles drop enough from it, every reply shows the accounts as
they are.
-/

namespace Lqxp

section Answers

/--
The messages that a step queues for the sessions.
-/
def ProfileLabel.answers : ProfileLabel → List Json
  | .account (.handled _ _ label) => label.queued.map (·.2)
  | _ => []

def ProfileLabel.clocks : ProfileLabel → List Nat
  | .account (.handled _ _ (.clock now)) => [now]
  | _ => []

def answers (tr : List (AccountEnv × ProfileLabel)) : List Json := tr.flatMap fun x => x.2.answers

def clocks (tr : List (AccountEnv × ProfileLabel)) : List Nat := tr.flatMap fun x => x.2.clocks

theorem answers_append (tr tr' : List (AccountEnv × ProfileLabel)) : answers (tr ++ tr') = answers tr ++ answers tr' :=
  List.flatMap_append

theorem clocks_append (tr tr' : List (AccountEnv × ProfileLabel)) : clocks (tr ++ tr') = clocks tr ++ clocks tr' :=
  List.flatMap_append

/--
A step that answers nothing.
-/
def ProfileLabel.Mute (label : ProfileLabel) : Prop := label.answers = []

theorem answers_eq_nil {p : Profiles α} {s s' : ProfileState} {tr : List (AccountEnv × ProfileLabel)} {a : α}
    (hp : p.Emits ProfileLabel.Mute) (h : Prog.Trace p s tr a s') : answers tr = [] :=
  List.flatMap_eq_nil_iff.2 (hp.of_trace h)

theorem mute_onSession {p : Proto α} {sid : Option String} (hp : p.Emits fun label => label.queued = [])
    : (onSession sid p).Emits ProfileLabel.Mute := by
  have hhandled : (handled sid p).Emits fun label => (ProfileLabel.account label).Mute :=
    .zoom _ (fun _ _ hlabel => congrArg (List.map (·.2)) hlabel) hp
  exact .zoom _ (fun _ _ hlabel => hlabel) hhandled

end Answers

section Found

variable (x : Externals) (db : AccountDatabase)

def ProfileLookup.found? (lookup : ProfileLookup) : Option StoredUser :=
  let byId := ((lookup.userId.map Text.trim).filter (· ≠ "")).bind fun userId =>
    (db.users.lookup userId).filter (·.id = userId)
  let byName := ((lookup.username.map Text.trim).filter (· ≠ "")).bind fun username =>
    db.users.values.find? (·.username = normalizeUsername x username)
  byId.or byName

/--
What a lookup finds is cached under a key of its own.
-/
def ProfileLookup.OwnKey (lookup : ProfileLookup) : Prop :=
  ∀ row, lookup.found? x db = some row → lookup.cacheKey ∈ (db.authenticatedUser row).publicProfile.cacheKeys

instance (lookup : ProfileLookup) : Decidable (lookup.OwnKey x db) :=
  inferInstanceAs (Decidable (∀ row ∈ lookup.found? x db,
    lookup.cacheKey ∈ (db.authenticatedUser row).publicProfile.cacheKeys))

/--
The value is what an account shows.
-/
def AccountDatabase.Holds (value : Json) : Prop := ∃ id shown, db.publicProfile? id = some shown ∧ value = shown.toJson

variable {x db} in
theorem ProfileLookup.exists_lookup_of_found? {lookup : ProfileLookup} {row : StoredUser}
    (h : lookup.found? x db = some row) : ∃ id, db.users.lookup id = some row := by
  rcases Option.or_eq_some_iff.1 h with hid | ⟨-, hname⟩
  . obtain ⟨userId, -, hfilter⟩ := Option.bind_eq_some_iff.1 hid
    exact ⟨userId, (Option.filter_eq_some_iff.1 hfilter).1⟩
  . obtain ⟨username, -, hfind⟩ := Option.bind_eq_some_iff.1 hname
    exact AssocMap.exists_lookup_of_mem_values (List.mem_of_find?_eq_some hfind)

end Found

section Lookups

variable {x : Externals} {s s' : AccountState} {tr : List (AccountEnv × AccountLabel)}

theorem trace_publicUserByIdField {userId : Option String} {r : ApiResult (Option PublicUser)}
    (h : Prog.Trace (AccountDatabase.publicUserByIdField userId).run s tr r s')
    : s' = s ∧ ((∃ err, r = .error err)
        ∨ r = .ok ((((userId.map Text.trim).filter (· ≠ "")).bind fun userId =>
          (s.app.accounts.users.lookup userId).filter (·.id = userId)).map s.app.accounts.authenticatedUser)) := by
  unfold AccountDatabase.publicUserByIdField at h
  split at h
  next userId huserId =>
    rw [huserId]
    obtain ⟨err, rfl, hfails⟩ | ⟨account, s₁, tr₁, tr₂, hfind, hdone, rfl⟩ := Prog.trace_run_bind_iff.1 h
    . exact ⟨(trace_findUserById hfails).1, .inl ⟨err, rfl⟩⟩
    . obtain ⟨rfl, e, rfl, ⟨-, herr⟩ | hok⟩ := trace_findUserById hfind
      . contradiction
      obtain ⟨-, rfl, rfl⟩ := Prog.trace_run_pure_iff.1 hdone
      obtain rfl := Except.ok.inj hok
      exact ⟨rfl, .inr (congrArg Except.ok (Option.map_map _ _ _))⟩
  next hnone =>
    obtain ⟨-, rfl, rfl⟩ := Prog.trace_run_pure_iff.1 h
    rw [hnone]
    exact ⟨rfl, .inr rfl⟩

theorem trace_publicUserByUsernameField {username : Option String} {r : ApiResult (Option PublicUser)}
    (h : Prog.Trace (AccountDatabase.publicUserByUsernameField x username).run s tr r s')
    : s' = s ∧ ((∃ err, r = .error err)
        ∨ r = .ok ((((username.map Text.trim).filter (· ≠ "")).bind fun username =>
          s.app.accounts.users.values.find? (·.username = normalizeUsername x username)).map
            s.app.accounts.authenticatedUser)) := by
  unfold AccountDatabase.publicUserByUsernameField at h
  split at h
  next username husername =>
    rw [husername]
    obtain ⟨err, rfl, hfails⟩ | ⟨account, s₁, tr₁, tr₂, hfind, hdone, rfl⟩ := Prog.trace_run_bind_iff.1 h
    . exact ⟨(trace_findUserByUsername hfails).1, .inl ⟨err, rfl⟩⟩
    . obtain ⟨rfl, herr | hok⟩ := trace_findUserByUsername hfind
      . contradiction
      obtain ⟨-, rfl, rfl⟩ := Prog.trace_run_pure_iff.1 hdone
      obtain rfl := Except.ok.inj hok
      exact ⟨rfl, .inr (congrArg Except.ok (Option.map_map _ _ _))⟩
  next hnone =>
    obtain ⟨-, rfl, rfl⟩ := Prog.trace_run_pure_iff.1 h
    rw [hnone]
    exact ⟨rfl, .inr rfl⟩

theorem trace_publicUserByIdOrUsername {lookup : ProfileLookup} {r : ApiResult (Option PublicUser)}
    (h : Prog.Trace (AccountDatabase.publicUserByIdOrUsername x lookup.userId lookup.username).run s tr r s')
    : s' = s ∧ ((∃ err, r = .error err)
        ∨ r = .ok ((lookup.found? x s.app.accounts).map s.app.accounts.authenticatedUser)) := by
  obtain ⟨err, rfl, hfails⟩ | ⟨user, s₁, tr₁, tr₂, hbyId, hrest, rfl⟩ := Prog.trace_run_bind_iff.1 h
  . exact ⟨(trace_publicUserByIdField hfails).1, .inl ⟨err, rfl⟩⟩
  obtain ⟨rfl, ⟨_, herr⟩ | hok⟩ := trace_publicUserByIdField hbyId
  . contradiction
  obtain rfl := Except.ok.inj hok
  rw [ProfileLookup.found?]
  split at hrest
  next user huser =>
    obtain ⟨row, hrow, rfl⟩ := Option.map_eq_some_iff.1 huser
    obtain ⟨-, rfl, rfl⟩ := Prog.trace_run_pure_iff.1 hrest
    refine ⟨rfl, .inr ?_⟩
    rw [hrow]
    rfl
  next hnone =>
    rw [Option.map_eq_none_iff.1 hnone]
    exact trace_publicUserByUsernameField hrest

end Lookups

/--
Every live entry of the cache shows an account as it is, and is kept under one of its own keys.
-/
def ProfileState.Coherent (s : ProfileState) (live : CachedPublicProfile → Prop) : Prop :=
  ReadThrough.Coherent s.accounts.publicProfile? PublicProfile.cacheKeys (fun c shown => c.value = shown.toJson) live
    s.publicProfileCache

/--
Only what accounts show has been found.
-/
structure FoundProfiles.Accurate (found : FoundProfiles) (db : AccountDatabase) : Prop where
  users : found.users.All fun _ value => db.Holds value
  profiles : ∃ fields, found.profiles = .obj fields ∧ ∀ field ∈ fields, ∃ id shown,
    db.publicProfile? id = some shown ∧ field = (Text.trim shown.username, shown.profile.toJson)
  badges : ∃ fields, found.badges = .obj fields ∧ ∀ field ∈ fields, ∃ id shown,
    db.publicProfile? id = some shown ∧ field = (Text.trim shown.username, .arr (shown.badges.map .str))

namespace FoundProfiles.Accurate

variable {db : AccountDatabase} {found : FoundProfiles}

theorem empty : ({} : FoundProfiles).Accurate db where
  users := AssocMap.All.empty
  profiles := ⟨[], rfl, fun _ h => nomatch h⟩
  badges := ⟨[], rfl, fun _ h => nomatch h⟩

theorem insertField {P : String × Json → Prop} {d value : Json} {key : String}
    (h : ∃ fields, d = .obj fields ∧ ∀ field ∈ fields, P field) (hvalue : P (key, value))
    : ∃ fields, Lqxp.insertField d key (some value) = .obj fields ∧ ∀ field ∈ fields, P field := by
  obtain ⟨fields, rfl, hfields⟩ := h
  refine ⟨_, rfl, fun field hfield => ?_⟩
  rcases List.mem_append.1 hfield with hold | hnew
  . exact hfields field (List.mem_filter.1 hold).1
  . rwa [List.mem_singleton.1 hnew]

theorem insert {value : Json} (h : found.Accurate db) (hvalue : db.Holds value)
    : (insertPublicProfilePayload found value).Accurate db := by
  obtain ⟨id, shown, hshown, rfl⟩ := hvalue
  have husername : shown.toJson.getStr? "username" = some shown.username := rfl
  have hprofile : shown.toJson.get? "profile" = some shown.profile.toJson := rfl
  have hbadges : shown.toJson.get? "badges" = some (.arr (shown.badges.map .str)) := rfl
  rw [insertPublicProfilePayload, husername, hprofile, hbadges, Option.getD_some]
  split
  . exact h
  . exact ⟨h.users.insert ⟨id, shown, hshown, rfl⟩, insertField h.profiles ⟨id, shown, hshown, rfl⟩,
      insertField h.badges ⟨id, shown, hshown, rfl⟩⟩

end FoundProfiles.Accurate

section Searches

variable {x : Externals} {live : CachedPublicProfile → Prop} {s s' : ProfileState}
  {tr : List (AccountEnv × ProfileLabel)} {now : Nat}

theorem ProfileState.Coherent.congr (h : s.Coherent live) (hsame : SameShown s s') : s'.Coherent live := by
  rw [ProfileState.Coherent, hsame.accounts, hsame.cache]
  exact h

theorem ProfileState.Coherent.cachePublicProfile {key id : String} {shown : PublicProfile} {u : Unit}
    (h : s.Coherent live) (hshown : s.accounts.publicProfile? id = some shown) (hkey : key ∈ shown.cacheKeys)
    (run : Prog.Trace (cachePublicProfile key now shown.toJson) s tr u s')
    : s'.accounts = s.accounts ∧ s'.Coherent live := by
  obtain ⟨e, -, -, rfl⟩ := Prog.trace_atom_iff.1 run
  refine ⟨rfl, ReadThrough.Coherent.insert ?_ hshown hkey rfl⟩
  split
  . refine ReadThrough.Coherent.moves h ⟨fun key c hc => ?_, fun _ _ hsame => .inl hsame⟩
    exact (Option.filter_eq_some_iff.1 ((AssocMap.lookup_retain _ _ _).symm.trans hc)).1
  . exact h

theorem trace_lookupPublicProfile {lookup : ProfileLookup} {r : ApiResult (Option Json)}
    (h : Prog.Trace (lookupPublicProfile x lookup now).run s tr r s') (hcoherent : s.Coherent live)
    (hown : lookup.OwnKey x s.accounts)
    : s'.accounts = s.accounts ∧ s'.Coherent live ∧ ∀ value, r = .ok (some value) → s.accounts.Holds value := by
  obtain ⟨err, rfl, hfails⟩ | ⟨user, s₁, tr₁, tr₂, hfind, hrest, rfl⟩ := Prog.trace_run_bind_iff.1 h
  . obtain ⟨tr₀, hrun, hcache, -⟩ := trace_onApi hfails
    have hsame : SameShown s s' := ⟨congrArg (·.app.accounts) (trace_publicUserByIdOrUsername hrun).1, hcache⟩
    exact ⟨hsame.accounts, hcoherent.congr hsame, fun _ herr => nomatch herr⟩
  obtain ⟨tr₀, hrun, hcache, -⟩ := trace_onApi hfind
  obtain ⟨haccount, ⟨_, herr⟩ | hok⟩ := trace_publicUserByIdOrUsername hrun
  . contradiction
  obtain rfl := Except.ok.inj hok
  have hsame : SameShown s s₁ := ⟨congrArg (·.app.accounts) haccount, hcache⟩
  split at hrest
  next user huser =>
    obtain ⟨row, hrow, rfl⟩ := Option.map_eq_some_iff.1 huser
    obtain ⟨id, hid⟩ := ProfileLookup.exists_lookup_of_found? hrow
    have hshown : s.accounts.publicProfile? id = some (s.accounts.authenticatedUser row).publicProfile :=
      congrArg (Option.map _) hid
    obtain ⟨u, s₂, tr₃, tr₄, hkeep, hdone, rfl⟩ := Prog.trace_run_lift_bind_iff.1 hrest
    obtain ⟨haccounts, hcoherent'⟩ := (hcoherent.congr hsame).cachePublicProfile
      ((congrArg (·.publicProfile? id) hsame.accounts).trans hshown) (hown row hrow) hkeep
    obtain ⟨-, rfl, rfl⟩ := Prog.trace_run_pure_iff.1 hdone
    refine ⟨haccounts.trans hsame.accounts, hcoherent', fun value hvalue => ?_⟩
    obtain rfl := Option.some.inj (Except.ok.inj hvalue)
    exact ⟨id, _, hshown, rfl⟩
  next =>
    obtain ⟨-, rfl, rfl⟩ := Prog.trace_run_pure_iff.1 hrest
    exact ⟨hsame.accounts, hcoherent.congr hsame, fun _ herr => nomatch herr⟩

theorem trace_findPublicProfiles {lookups : List ProfileLookup} {found : FoundProfiles} {r : ApiResult FoundProfiles}
    (h : Prog.Trace (findPublicProfiles x now lookups found).run s tr r s') (hcoherent : s.Coherent live)
    (hlive : ∀ c : CachedPublicProfile, now < c.expiresAtMs → live c)
    (hown : ∀ lookup ∈ lookups, lookup.OwnKey x s.accounts) (hfound : found.Accurate s.accounts)
    : s'.accounts = s.accounts ∧ s'.Coherent live ∧ ∀ found', r = .ok found' → found'.Accurate s.accounts := by
  induction lookups generalizing s tr found with
  | nil =>
    obtain ⟨-, rfl, rfl⟩ := Prog.trace_run_pure_iff.1 h
    refine ⟨rfl, hcoherent, fun found' hok => ?_⟩
    rwa [← Except.ok.inj hok]
  | cons lookup lookups ih =>
    have hlater : ∀ lookup ∈ lookups, lookup.OwnKey x s.accounts := fun l hl => hown l (.tail _ hl)
    obtain ⟨cached, s₁, tr₁, tr₂, hlook, hrest, rfl⟩ := Prog.trace_run_lift_bind_iff.1 h
    obtain ⟨e, -, hcached, rfl⟩ := Prog.trace_atom_iff.1 hlook
    clear h hlook
    split at hrest
    next value =>
      obtain ⟨c, hc, rfl⟩ := Option.map_eq_some_iff.1 hcached.symm
      obtain ⟨hkept, hfresh⟩ := Option.filter_eq_some_iff.1 hc
      obtain ⟨id, shown, hshown, hvalue⟩ := ReadThrough.Coherent.hit hcoherent hkept
        (hlive c (of_decide_eq_true hfresh))
      exact ih hrest hcoherent hlater (hfound.insert ⟨id, shown, hshown, hvalue⟩)
    next =>
      obtain ⟨err, rfl, hfails⟩ | ⟨value, s₂, tr₃, tr₄, hsearch, hrest', rfl⟩ := Prog.trace_run_bind_iff.1 hrest
      . obtain ⟨haccounts, hcoherent', -⟩ := trace_lookupPublicProfile hfails hcoherent (hown lookup List.mem_cons_self)
        exact ⟨haccounts, hcoherent', fun _ herr => nomatch herr⟩
      . obtain ⟨haccounts, hcoherent', hvalue⟩ :=
          trace_lookupPublicProfile hsearch hcoherent (hown lookup List.mem_cons_self)
        split at hrest'
        next value =>
          rw [← haccounts]
          exact ih hrest' hcoherent' (haccounts ▸ hlater) (haccounts ▸ hfound.insert (hvalue value rfl))
        next =>
          rw [← haccounts]
          exact ih hrest' hcoherent' (haccounts ▸ hlater) (haccounts ▸ hfound)

end Searches

section Replies

namespace AccountDatabase

variable (db : AccountDatabase)

/--
The entry has the id, the name, the profile and the badges of an account that there is.
-/
def Shows (entry : Json) : Prop :=
  ∃ user, db.users.lookup user.id = some user ∧ entry.get? "userId" = some (.str user.id)
    ∧ entry.get? "username" = some (.str user.username) ∧ entry.get? "profile" = some user.profile.toJson
    ∧ entry.get? "badges" = some (.arr ((db.userBadges user).map .str))

/--
What a reply says of accounts is what there is: its entries and, by names, the profiles and the badges.
-/
structure ShowsAccounts (payload : Json) : Prop where
  users (elems : List Json) : (payload.get? "d").bind (·.get? "users") = some (.arr elems) →
    ∀ entry ∈ elems, db.Shows entry
  profiles (fields : List (String × Json)) : (payload.get? "d").bind (·.get? "profiles") = some (.obj fields) →
    ∀ field ∈ fields, ∃ user, db.users.lookup user.id = some user
      ∧ field = (Text.trim user.username, user.profile.toJson)
  badges (fields : List (String × Json)) : (payload.get? "d").bind (·.get? "badges") = some (.obj fields) →
    ∀ field ∈ fields, ∃ user, db.users.lookup user.id = some user
      ∧ field = (Text.trim user.username, .arr ((db.userBadges user).map .str))

variable {db}

theorem Keyed.exists_user (hkeyed : db.Keyed) {id : String} {shown : PublicProfile}
    (h : db.publicProfile? id = some shown)
    : ∃ user, db.users.lookup user.id = some user ∧ shown = (db.authenticatedUser user).publicProfile := by
  obtain ⟨user, huser, rfl⟩ := Option.map_eq_some_iff.1 h
  exact ⟨user, by rwa [hkeyed id user huser], rfl⟩

theorem Keyed.shows (hkeyed : db.Keyed) {entry : Json} (h : db.Holds entry) : db.Shows entry := by
  obtain ⟨id, shown, hshown, rfl⟩ := h
  obtain ⟨user, huser, rfl⟩ := hkeyed.exists_user hshown
  exact ⟨user, huser, rfl, rfl, rfl, rfl⟩

end AccountDatabase

theorem get?_withRequestId {op : Nat} {d : List (String × Json)} {reqId : Option String} {key : String}
    (hkey : key ≠ "requestId")
    : ((withRequestId (message op d) reqId).get? "d").bind (·.get? key) = (Json.obj d).get? key := by
  cases reqId with
  | none => rfl
  | some reqId =>
    simp only [withRequestId, get?_d_message]
    simp [message, Json.get?_insert, Option.filter, Json.isObject, hkey]

variable {db : AccountDatabase} {reqId : Option String}

theorem AccountDatabase.showsAccounts_error (text : String)
    : db.ShowsAccounts (withRequestId (message 35 [("error", .str text)]) reqId) := by
  refine ⟨fun elems h => ?_, fun fields h => ?_, fun fields h => ?_⟩
  . rw [get?_withRequestId (by decide)] at h
    cases h
  . rw [get?_withRequestId (by decide)] at h
    cases h
  . rw [get?_withRequestId (by decide)] at h
    cases h

theorem FoundProfiles.Accurate.showsAccounts {found : FoundProfiles} (h : found.Accurate db) (hkeyed : db.Keyed)
    : db.ShowsAccounts (withRequestId (message 35 [("ok", .bool true), ("users", .arr found.sortedUsers),
        ("profiles", found.profiles), ("badges", found.badges), ("ttlMs", .int publicProfileCacheTtlMs)]) reqId) := by
  refine ⟨fun elems helems entry hentry => ?_, fun fields hfields field hfield => ?_, fun fields hfields field hfield => ?_⟩
  . rw [get?_withRequestId (by decide)] at helems
    obtain rfl : found.sortedUsers = elems := Json.arr.inj (Option.some.inj helems)
    obtain ⟨⟨username, value⟩, hmem, rfl⟩ := List.mem_map.1 hentry
    obtain ⟨key, hlookup⟩ :=
      AssocMap.exists_lookup_of_mem_values (List.mem_map_of_mem (f := (·.2)) (List.mem_mergeSort.1 hmem))
    exact hkeyed.shows (h.users key value hlookup)
  . rw [get?_withRequestId (by decide)] at hfields
    obtain ⟨fields', heq, hall⟩ := h.profiles
    obtain rfl : fields' = fields := Json.obj.inj (heq.symm.trans (Option.some.inj hfields))
    obtain ⟨id, shown, hshown, rfl⟩ := hall field hfield
    obtain ⟨user, huser, rfl⟩ := hkeyed.exists_user hshown
    exact ⟨user, huser, rfl⟩
  . rw [get?_withRequestId (by decide)] at hfields
    obtain ⟨fields', heq, hall⟩ := h.badges
    obtain rfl : fields' = fields := Json.obj.inj (heq.symm.trans (Option.some.inj hfields))
    obtain ⟨id, shown, hshown, rfl⟩ := hall field hfield
    obtain ⟨user, huser, rfl⟩ := hkeyed.exists_user hshown
    exact ⟨user, huser, rfl⟩

end Replies

section Requests

variable {x : Externals} {s s' : ProfileState} {tr : List (AccountEnv × ProfileLabel)} {sid : String}

theorem answers_onSession {p : Proto α} {sid : Option String} {a : α} (h : Prog.Trace (onSession sid p) s tr a s')
    : ∃ tr₀, Prog.Trace p s.account.app tr₀ a s'.account.app ∧ answers tr = (queued tr₀).map (·.2)
        ∧ ∀ now e, (e, Label.clock now) ∈ tr₀ → now ∈ clocks tr := by
  obtain ⟨tr₀, hrun, -, hlabels⟩ := trace_onSession h
  refine ⟨tr₀, hrun, ?_⟩
  clear hrun h
  induction hlabels with
  | nil => exact ⟨rfl, fun _ _ hmem => nomatch hmem⟩
  | @cons y z tr tr₀ hyz hrest ih =>
    obtain ⟨sender, hlabel⟩ := hyz
    obtain ⟨hanswers, hclocks⟩ := ih
    refine ⟨?_, fun now e hmem => ?_⟩
    . show y.2.answers ++ answers tr = _
      rw [hanswers, queued_cons, List.map_append, hlabel]
      rfl
    . show now ∈ y.2.clocks ++ clocks tr
      rcases List.mem_cons.1 hmem with rfl | hmem
      . rw [hlabel]
        exact List.mem_append_left _ (List.mem_singleton_self now)
      . exact List.mem_append_right _ (hclocks now e hmem)

theorem trace_refused {text : String} {reqId : Option String} {b : Bool}
    (h : Prog.Trace (onSession (some sid) (respondError sid 35 text reqId)) s tr b s')
    : SameShown s s' ∧ ∀ db : AccountDatabase, ∀ payload ∈ answers tr, db.ShowsAccounts payload := by
  obtain ⟨tr₀, hrun, hanswers, -⟩ := answers_onSession h
  obtain ⟨e, rfl, -⟩ := trace_respondError hrun
  refine ⟨sameShown_onSession (.of_aside (.respondError _ _ _ _)) h, fun db payload hpayload => ?_⟩
  rw [hanswers, queued_cons, queued_nil, List.append_nil] at hpayload
  obtain ⟨m, hm, rfl⟩ := List.mem_map.1 hpayload
  rw [AppState.mem_queued_replyLabel hm]
  exact AccountDatabase.showsAccounts_error text

theorem mute_publicUserByIdOrUsername (userId username : Option String)
    : (onApi (AccountDatabase.publicUserByIdOrUsername x userId username)).run.Emits ProfileLabel.Mute := by
  have hname : (AccountDatabase.publicUserByUsernameField x username).run.Emits fun label =>
      (ProfileLabel.account label).Mute := by
    unfold AccountDatabase.publicUserByUsernameField
    split
    . refine .run_bind (.atom fun e s => ?_) fun _ => .pure _
      dsimp only
      repeat' split
      all_goals rfl
    . exact .pure _
  have hid : (AccountDatabase.publicUserByIdField userId).run.Emits fun label =>
      (ProfileLabel.account label).Mute := by
    unfold AccountDatabase.publicUserByIdField
    split
    . refine .run_bind (.atom fun e s => ?_) fun _ => .pure _
      dsimp only
      split
      . rfl
      . rfl
    . exact .pure _
  refine .zoom _ (fun _ _ hlabel => hlabel) (.run_bind hid fun user => ?_)
  split
  . exact .pure _
  . exact hname

theorem mute_findPublicProfiles {now : Nat} (lookups : List ProfileLookup) (found : FoundProfiles)
    : (findPublicProfiles x now lookups found).run.Emits ProfileLabel.Mute := by
  induction lookups generalizing found with
  | nil => exact .pure _
  | cons lookup lookups ih =>
    refine .run_bind (.run_lift (.atom fun _ _ => rfl)) fun cached => ?_
    split
    . exact ih _
    refine .run_bind (.run_bind (mute_publicUserByIdOrUsername _ _) fun user => ?_) fun value => ?_
    . split
      . exact .run_bind (.run_lift (.atom fun _ _ => rfl)) fun _ => .pure _
      . exact .pure _
    . split
      . exact ih _
      . exact ih _

theorem trace_requestPublicProfiles {live : CachedPublicProfile → Prop} {d : Json} {b : Bool}
    (h : Prog.Trace (requestPublicProfiles x sid d) s tr b s') (hkeyed : s.accounts.Keyed)
    (hcoherent : s.Coherent live)
    (hlive : ∀ now ∈ clocks tr, ∀ c : CachedPublicProfile, now < c.expiresAtMs → live c)
    (hown : ∀ lookup ∈ profileLookups d, lookup.OwnKey x s.accounts)
    : s'.accounts = s.accounts ∧ s'.Coherent live ∧ ∀ payload ∈ answers tr, s.accounts.ShowsAccounts payload := by
  have hrefused {s s₁ s' : ProfileState} {tr₁ tr₂ : List (AccountEnv × ProfileLabel)} {text : String}
      (hsame : SameShown s s₁) (hcoherent : s.Coherent live) (hquiet : answers tr₁ = [])
      (h : Prog.Trace (onSession (some sid) (respondError sid 35 text (requestId d))) s₁ tr₂ b s')
      : s'.accounts = s.accounts ∧ s'.Coherent live
          ∧ ∀ payload ∈ answers (tr₁ ++ tr₂), s.accounts.ShowsAccounts payload := by
    obtain ⟨hsame', hanswers⟩ := trace_refused h
    refine ⟨(hsame.trans hsame').accounts, hcoherent.congr (hsame.trans hsame'), ?_⟩
    rw [answers_append, hquiet, List.nil_append]
    exact hanswers _
  have hget : (getPlayer sid).Emits fun label => label.queued = [] := by
    refine .atom fun e s => ?_
    split
    . rfl
    . rfl
  obtain ⟨player, s₁, tr₁, tr₂, hplayer, hrest, rfl⟩ := Prog.trace_bind_iff.1 h
  have hsame₁ : SameShown s s₁ := sameShown_onSession (.of_aside (.getPlayer sid)) hplayer
  have hquiet₁ : answers tr₁ = [] := answers_eq_nil (mute_onSession hget) hplayer
  clear h
  split at hrest
  . exact hrefused hsame₁ hcoherent hquiet₁ hrest
  obtain ⟨hit, s₂, tr₃, tr₄, hlimit, hrest', rfl⟩ := Prog.trace_bind_iff.1 hrest
  clear hrest
  have hsame₂ : SameShown s s₂ := hsame₁.trans (sameShown_onSession (.of_aside (.hitRateLimit _ _ _)) hlimit)
  have hquiet₂ : answers (tr₁ ++ tr₃) = [] := by
    rw [answers_append, hquiet₁, answers_eq_nil (mute_onSession (.atom fun _ _ => rfl)) hlimit]
    rfl
  rw [← List.append_assoc] at hlive ⊢
  by_cases hhit : hit = true
  . rw [if_pos hhit] at hrest'
    exact hrefused hsame₂ hcoherent hquiet₂ hrest'
  rw [if_neg hhit] at hrest'
  split at hrest'
  . exact hrefused hsame₂ hcoherent hquiet₂ hrest'
  obtain ⟨now, s₃, tr₅, tr₆, hclock, hsearch, rfl⟩ := Prog.trace_bind_iff.1 hrest'
  clear hrest'
  obtain ⟨tr₀, hrun, hanswers, hclocks⟩ := answers_onSession hclock
  obtain ⟨e, rfl, rfl, -⟩ := Prog.trace_atom_iff.1 hrun
  have hsame₃ : SameShown s s₃ := hsame₂.trans (sameShown_onSession (.atom fun _ _ => rfl) hclock)
  have hquiet₃ : answers (tr₁ ++ tr₃ ++ tr₅) = [] := by
    rw [answers_append, hquiet₂, hanswers]
    rfl
  obtain ⟨r, s₄, tr₇, tr₈, hfind, hreply, rfl⟩ := Prog.trace_bind_iff.1 hsearch
  have hnow : e.now ∈ clocks (tr₁ ++ tr₃ ++ (tr₅ ++ (tr₇ ++ tr₈))) := by
    rw [clocks_append, clocks_append tr₅]
    exact List.mem_append_right _ (List.mem_append_left _ (hclocks _ _ (List.mem_singleton_self _)))
  obtain ⟨haccounts, hcoherent', hfound⟩ := trace_findPublicProfiles hfind (hcoherent.congr hsame₃)
    (hlive _ hnow) (hsame₃.accounts ▸ hown) (hsame₃.accounts ▸ .empty)
  have hquiet₄ : answers (tr₁ ++ tr₃ ++ tr₅ ++ tr₇) = [] := by
    rw [answers_append, hquiet₃, answers_eq_nil (mute_findPublicProfiles _ _) hfind]
    rfl
  rw [← List.append_assoc, ← List.append_assoc]
  split at hreply
  . obtain ⟨hsame', hanswers⟩ := trace_refused hreply
    refine ⟨hsame'.accounts.trans (haccounts.trans hsame₃.accounts), hcoherent'.congr hsame', ?_⟩
    rw [answers_append, hquiet₄, List.nil_append]
    exact hanswers _
  next found =>
    have hsame' : SameShown s₄ s' := sameShown_onSession (.of_aside (.respondOk _ _ _ _)) hreply
    obtain ⟨tr₀, hrun, hanswers', -⟩ := answers_onSession hreply
    obtain ⟨e', rfl, -⟩ := trace_respondOk hrun
    refine ⟨hsame'.accounts.trans (haccounts.trans hsame₃.accounts), hcoherent'.congr hsame', fun payload hpayload => ?_⟩
    rw [answers_append, hquiet₄, List.nil_append, hanswers', queued_cons, queued_nil, List.append_nil] at hpayload
    obtain ⟨m, hm, rfl⟩ := List.mem_map.1 hpayload
    rw [AppState.mem_queued_replyLabel hm, ← hsame₃.accounts]
    exact (hfound found rfl).showsAccounts (hsame₃.accounts ▸ hkeyed)

end Requests

end Lqxp

namespace Lqxp

abbrev ProfileVisit := Prog.Visit ProfileRequest AccountEnv ProfileState ProfileLabel

def ProfileRequest.isLookup : ProfileRequest → Bool
  | .lookup .. => true
  | _ => false

/--
A request for profiles among these may still take the entry for fresh.
-/
def MayServe (visits : List ProfileVisit) (c : CachedPublicProfile) : Prop :=
  ∃ v ∈ visits, v.req.isLookup = true ∧ ∃ now ∈ clocks v.tr, now < c.expiresAtMs

section Conditions

variable (x : Externals) (live : CachedPublicProfile → Prop)

def AccountDatabase.tokenAdmin? (db : AccountDatabase) (token : String) : Option StoredUser :=
  (db.tokenUser? token).filter fun row => (db.authenticatedUser row).admin

/--
The request needs nothing dropped from the cache that its service forgets: the entries that it adds have keys of
their own accounts, a changed or deleted account has no entry left, nobody who has one gets or loses a badge when
others are deleted, and the look at the account behind a write succeeds.
-/
def ProfileVisit.ForgetsNothing (v : ProfileVisit) : Prop :=
  match v.req with
  | .lookup _ d => ∀ lookup ∈ profileLookups d, lookup.OwnKey x v.before.accounts
  | .settings sid d => (d.get? "profile").isSome → ∀ player, v.before.players.lookup sid = some player →
      ∀ shown, v.before.accounts.publicProfile? player.userId = some shown → shown.Uncached live v.before
  | .uploadImage .. => True
  | .changeUsername .. | .setUserBadges .. => ¬ FailsAfterWrite v.tr
  | .deleteAccount token _ => ∀ row, v.before.accounts.tokenUser? token = some row → v.before.KeepsBadges live [row.id]
  | .deleteUserAccount token userId => (v.before.accounts.tokenAdmin? token).isSome →
      v.before.KeepsBadges live [userId]
        ∧ ∀ shown, v.before.accounts.publicProfile? userId = some shown →
          ∀ c, v.before.publicProfileCache.lookup shown.nameKey = some c → ¬ live c
  | .purgeAccounts token filter => (v.before.accounts.tokenAdmin? token).isSome →
      v.before.KeepsBadges live (v.before.accounts.purgeTargets x filter)
        ∧ ∀ id ∈ v.before.accounts.purgeTargets x filter, ∀ shown,
          v.before.accounts.publicProfile? id = some shown → shown.Uncached live v.before

/--
All of the requests are such, where an entry counts as long as a later request may serve it.
-/
def ForgetNothing : List ProfileVisit → Prop
  | [] => True
  | v :: later => ProfileVisit.ForgetsNothing x (MayServe later) v ∧ ForgetNothing later

end Conditions

section Steps

variable {x : Externals} {live : CachedPublicProfile → Prop} {s s₁ s' : ProfileState}
  {tr : List (AccountEnv × ProfileLabel)}

theorem PublicProfile.Uncached.congr {shown : PublicProfile} (h : shown.Uncached live s) (hsame : SameShown s s₁)
    : shown.Uncached live s₁ :=
  h.of_kept fun _ _ hc => hsame.cache ▸ hc

theorem ProfileState.KeepsBadges.congr {userIds : List String} (h : s.KeepsBadges live userIds)
    (hsame : SameShown s s₁) : s₁.KeepsBadges live userIds := by
  intro id user huser
  rw [hsame.accounts] at huser ⊢
  exact (h id user huser).imp_right fun huncached => huncached.congr hsame

theorem AccountDatabase.isSome_tokenAdmin? {db : AccountDatabase} {token : String} {row : StoredUser}
    (h : db.tokenUser? token = some row) (hadmin : (db.authenticatedUser row).admin = true)
    : (db.tokenAdmin? token).isSome := by
  rw [tokenAdmin?, h, Option.filter, if_pos hadmin]
  rfl

theorem trace_discard {p : ProfileApi α} {r : ApiResult Unit}
    (h : Prog.Trace (p >>= fun _ => pure ()).run s tr r s') : ∃ r', Prog.Trace p.run s tr r' s' := by
  obtain ⟨err, -, hfails⟩ | ⟨a, s₁, tr₁, tr₂, hrun, hdone, rfl⟩ := Prog.trace_run_bind_iff.1 h
  . exact ⟨_, hfails⟩
  . obtain ⟨rfl, -, rfl⟩ := Prog.trace_run_pure_iff.1 hdone
    rw [List.append_nil]
    exact ⟨_, hrun⟩

theorem trace_discard_lift {p : Profiles α} {r : ApiResult Unit}
    (h : Prog.Trace (ExceptT.lift p >>= fun _ => pure ()).run s tr r s') : ∃ a, Prog.Trace p s tr a s' := by
  obtain ⟨a, s₁, tr₁, tr₂, hrun, hdone, rfl⟩ := Prog.trace_run_lift_bind_iff.1 h
  obtain ⟨rfl, -, rfl⟩ := Prog.trace_run_pure_iff.1 hdone
  rw [List.append_nil]
  exact ⟨_, hrun⟩

theorem KeepsCoherent.of_route {token text : String} {key : AuthenticatedUser → String} {limit windowMs : Nat}
    {f : AuthenticatedUser → ProfileApi Unit} {r : ApiResult Unit}
    (h : Prog.Trace (authenticatedUser token >>= fun user =>
      routeRateLimit (key user) limit windowMs text >>= fun _ => f user).run s tr r s')
    (hservice : ∀ row s₁ tr₁, s.accounts.tokenUser? token = some row → SameShown s s₁ → tr₁ <:+: tr →
      Prog.Trace (f (s₁.accounts.authenticatedUser row)).run s₁ tr₁ r s' → KeepsCoherent live s₁ s')
    : KeepsCoherent live s s' := by
  rcases trace_route h with hsame | ⟨row, s₁, tr₁, tr₂, htoken, hsame, hlimited, rfl⟩
  . exact .of_same hsame
  rcases trace_limited hlimited with hsame' | ⟨s₂, tr₃, tr₄, hsame', hrun, rfl⟩
  . exact .of_same (hsame.trans hsame')
  . have hsame₂ := hsame.trans hsame'
    refine .trans (.of_same hsame₂) (hservice row s₂ tr₄ htoken hsame₂ ?_ (hsame₂.accounts ▸ hrun))
    exact ((List.suffix_append tr₃ tr₄).trans (List.suffix_append tr₁ _)).isInfix

theorem KeepsCoherent.api {req : ProfileRequest} {r : ApiResult Unit} (hreq : req.isLookup = false)
    (hkeyed : s.accounts.Keyed) (h : Prog.Trace (req.api x).run s tr r s')
    (hmeets : ProfileVisit.ForgetsNothing x live { before := s, req, tr, after := s' }) : KeepsCoherent live s s' := by
  have hlookup {row : StoredUser} {token : String} {s₁ : ProfileState} (hsame : SameShown s s₁)
      (htoken : s.accounts.tokenUser? token = some row) : s₁.accounts.users.lookup row.id = some row := by
    rw [hsame.accounts]
    exact AccountDatabase.lookup_tokenUser htoken hkeyed
  cases req with
  | lookup sid d => contradiction
  | settings sid d =>
    obtain ⟨b, hrun⟩ := trace_discard_lift h
    exact .settings hrun hmeets
  | uploadImage token kind file =>
    refine .of_route h fun row s₁ tr₁ htoken hsame _ hrun => ?_
    obtain ⟨answer, hrun⟩ := trace_discard_lift hrun
    exact .uploadProfileImage (hlookup hsame htoken) hrun
  | changeUsername token newUsername =>
    refine .of_route h fun row s₁ tr₁ htoken hsame hwithin hrun => ?_
    obtain ⟨r', hrun⟩ := trace_discard hrun
    exact .changeUsername (hlookup hsame htoken) hrun fun hfails => hmeets (hfails.of_within hwithin)
  | setUserBadges token userId badges =>
    refine .of_route h fun row s₁ tr₁ htoken hsame hwithin hrun => ?_
    obtain ⟨r', hrun⟩ := trace_discard hrun
    exact .setUserBadges (hsame.accounts ▸ hkeyed) hrun fun hfails => hmeets (hfails.of_within hwithin)
  | deleteAccount token password =>
    obtain ⟨r', hrun⟩ := trace_discard h
    exact .deleteAccount hkeyed hrun hmeets
  | deleteUserAccount token userId =>
    refine .of_route h fun row s₁ tr₁ htoken hsame _ hrun => ?_
    obtain ⟨r', hrun⟩ := trace_discard hrun
    refine .deleteUserAccount (hsame.accounts ▸ hkeyed) hrun (fun hadmin => ?_) (fun hadmin shown hshown c hc => ?_)
    . exact (hmeets (AccountDatabase.isSome_tokenAdmin? htoken (hsame.accounts ▸ hadmin))).1.congr hsame
    . refine (hmeets (AccountDatabase.isSome_tokenAdmin? htoken (hsame.accounts ▸ hadmin))).2 shown ?_ c ?_
      . exact hsame.accounts ▸ hshown
      . exact hsame.cache ▸ hc
  | purgeAccounts token filter =>
    refine .of_route h fun row s₁ tr₁ htoken hsame _ hrun => ?_
    obtain ⟨r', hrun⟩ := trace_discard hrun
    refine .purgeAccounts hrun (fun hadmin => ?_) (fun hadmin id hid shown hshown => ?_)
    . rw [hsame.accounts] at hadmin ⊢
      exact (hmeets (AccountDatabase.isSome_tokenAdmin? htoken hadmin)).1.congr hsame
    . rw [hsame.accounts] at hadmin hid hshown
      exact ((hmeets (AccountDatabase.isSome_tokenAdmin? htoken hadmin)).2 id hid shown hshown).congr hsame

end Steps

section Runs

variable {x : Externals} {s s' : ProfileState} {visits : List ProfileVisit}

theorem trace_handle {req : ProfileRequest} {tr : List (AccountEnv × ProfileLabel)}
    (h : Prog.Trace (req.handle x) s tr () s') : ∃ r, Prog.Trace (req.api x).run s tr r s' := by
  obtain ⟨r, s₁, tr₁, tr₂, hrun, hdone, rfl⟩ := Prog.trace_bind_iff.1 h
  obtain ⟨rfl, -, rfl⟩ := Prog.trace_done_iff.1 hdone
  rw [List.append_nil]
  exact ⟨r, hrun⟩

theorem ProfileRequest.exists_of_isLookup {req : ProfileRequest} (h : req.isLookup = true)
    : ∃ sid d, req = .lookup sid d := by
  cases req with
  | lookup sid d => exact ⟨sid, d, rfl⟩
  | _ => contradiction

/--
A reply to a request for profiles shows the accounts as they are while it is built.
-/
def ProfileVisit.Truthful (v : ProfileVisit) : Prop :=
  v.req.isLookup = true →
    v.after.accounts = v.before.accounts ∧ ∀ payload ∈ answers v.tr, v.after.accounts.ShowsAccounts payload

theorem truthful_of_coherent (h : Prog.History (ProfileRequest.handle x) s visits) (hkeyed : s.accounts.Keyed)
    (hcoherent : s.Coherent (MayServe visits)) (hforget : ForgetNothing x visits)
    : ∀ v ∈ visits, ProfileVisit.Truthful v := by
  induction h with
  | nil => exact fun v hv => nomatch hv
  | @cons s s' req tr later run rest ih =>
    obtain ⟨r, hrun⟩ := trace_handle run
    have hexpire (c : CachedPublicProfile) : MayServe later c → MayServe
        ({ before := s, req, tr, after := s' } :: later) c :=
      fun ⟨v, hv, hserves⟩ => ⟨v, .tail _ hv, hserves⟩
    cases hreq : req.isLookup with
    | true =>
      obtain ⟨sid, d, rfl⟩ := ProfileRequest.exists_of_isLookup hreq
      obtain ⟨b, hlookup⟩ := trace_discard_lift hrun
      obtain ⟨haccounts, hcoherent', hshows⟩ := trace_requestPublicProfiles hlookup hkeyed hcoherent
        (fun now hnow c hfresh => ⟨_, List.mem_cons_self, hreq, now, hnow, hfresh⟩) hforget.1
      have hfirst : ProfileVisit.Truthful { before := s, req := .lookup sid d, tr, after := s' } :=
        fun _ => ⟨haccounts, fun payload hpayload => haccounts ▸ hshows payload hpayload⟩
      have hkeyed' : s'.accounts.Keyed := haccounts ▸ hkeyed
      exact List.forall_mem_cons.2 ⟨hfirst, ih hkeyed' (hcoherent'.expire hexpire) hforget.2⟩
    | false =>
      have hkeeps : KeepsCoherent (MayServe later) s s' := .api hreq hkeyed hrun hforget.1
      have hfirst : ProfileVisit.Truthful { before := s, req, tr, after := s' } := by
        intro htrue
        exact absurd (htrue.symm.trans hreq) Bool.noConfusion
      have hcoherent' : s'.Coherent (MayServe later) := (hcoherent.expire hexpire).moves hkeeps.moves
      exact List.forall_mem_cons.2 ⟨hfirst, ih (hkeeps.keyed hkeyed) hcoherent' hforget.2⟩

/--
As long as no service forgets to drop something from the cache, every reply shows the accounts as they are.
-/
theorem truthful_of_forgetNothing (h : Prog.History (ProfileRequest.handle x) s visits)
    (hempty : s.publicProfileCache = ∅) (hkeyed : s.accounts.Keyed) (hforget : ForgetNothing x visits)
    : ∀ v ∈ visits, ProfileVisit.Truthful v := by
  refine truthful_of_coherent h hkeyed ?_ hforget
  rw [ProfileState.Coherent, hempty]
  exact .empty

def oneProfile : ProfileState :=
  { account :=
      { app :=
          { accounts :=
              { users := AList.insert "1" { id := "1", username := "anna" } ∅
                sessions := AList.insert "a" { userId := "1", expiresAt := 1000 } ∅ }
            players := AList.insert "phone" { id := "phone", userId := "1", username := "anna" } ∅ } } }

theorem keyed_oneProfile : oneProfile.accounts.Keyed := .insert .empty rfl

def lookupRequest (userId : String) : ProfileRequest := .lookup "phone" (.obj [("userId", .str userId)])

def describeRequest (description : String) : ProfileRequest :=
  .settings "phone" (.obj [("profile", .obj [("description", .str description)])])

theorem not_failsAfterWrite_play {p : Profiles α} {e : AccountEnv} (he : e.dbFails = false)
    : ¬ FailsAfterWrite (p.play e s).1 := by
  rintro ⟨y, z, hyz, -, hfails⟩
  have hz : z ∈ (p.play e s).1 := hyz.subset (.tail _ (.head _))
  rw [Prog.eq_of_mem_play hz, he] at hfails
  contradiction

/--
Somebody describes herself, is looked up, changes her name and is looked up again.
-/
theorem truthful_of_forgetNothing_renamed
    : let visits := Prog.playVisits (ProfileRequest.handle plainExternals)
        [(describeRequest "new", { now := 5 }), (lookupRequest "1", { now := 6 }),
          (.changeUsername "a" "berta", { now := 7 }), (lookupRequest "1", { now := 8 })] oneProfile
      (visits.any fun v => (answers v.tr).any fun payload =>
        (((payload.get? "d").bind (·.get? "profiles")).bind (·.get? "berta")).isSome) = true
        ∧ ∀ v ∈ visits, ProfileVisit.Truthful v := by
  refine ⟨by decide +kernel, truthful_of_forgetNothing (Prog.history_playVisits ..) rfl keyed_oneProfile ?_⟩
  simp only [Prog.playVisits, ForgetNothing]
  refine ⟨?_, ?_, ?_, ?_, trivial⟩
  . exact fun _ _ _ _ _ _ _ _ hc => nomatch hc
  . show ∀ lookup ∈ profileLookups _, lookup.OwnKey _ _
    decide +kernel
  . exact not_failsAfterWrite_play (e := { now := 7 }) rfl
  . show ∀ lookup ∈ profileLookups _, lookup.OwnKey _ _
    decide +kernel

/--
Whether an entry is about an account that has another description by now.
-/
def AccountDatabase.outdates (db : AccountDatabase) (entry : Json) : Bool :=
  ((entry.getStr? "userId").bind db.users.lookup).any fun user =>
    (entry.get? "profile").bind (·.getStr? "description") ≠ user.profile.toJson.getStr? "description"

theorem AccountDatabase.not_shows_of_outdates {db : AccountDatabase} {entry : Json} (h : db.outdates entry = true)
    : ¬ db.Shows entry := by
  rintro ⟨user, hlookup, hid, -, hprofile, -⟩
  have huserId : entry.getStr? "userId" = some user.id := congrArg (Option.bind · Json.asStr?) hid
  rw [outdates, huserId, hprofile] at h
  simp [hlookup] at h

def userEntries (payload : Json) : List Json :=
  match (payload.get? "d").bind (·.get? "users") with
  | some (.arr entries) => entries
  | _ => []

theorem AccountDatabase.ShowsAccounts.shows {db : AccountDatabase} {payload entry : Json}
    (h : db.ShowsAccounts payload) (hmem : entry ∈ userEntries payload) : db.Shows entry := by
  rw [userEntries] at hmem
  split at hmem
  next entries hentries => exact h.users entries hentries entry hmem
  next => exact absurd hmem List.not_mem_nil

/--
Somebody is looked up, changes her description and is looked up again.
-/
theorem not_truthful
    : ¬∀ (x : Externals) (s : ProfileState) (visits : List ProfileVisit),
        Prog.History (ProfileRequest.handle x) s visits → s.publicProfileCache = ∅ → s.accounts.Keyed →
          ∀ v ∈ visits, ProfileVisit.Truthful v := by
  intro h
  let visits := Prog.playVisits (ProfileRequest.handle plainExternals)
    [(lookupRequest "1", { now := 5 }), (describeRequest "new", { now := 6 }), (lookupRequest "1", { now := 7 })]
    oneProfile
  have hstale : (visits.any fun v => v.req.isLookup && (answers v.tr).any fun payload =>
      (userEntries payload).any v.after.accounts.outdates) = true := by decide +kernel
  obtain ⟨v, hv, hstale⟩ := List.any_eq_true.1 hstale
  obtain ⟨hlookup, hstale⟩ := Bool.and_eq_true_iff.1 hstale
  obtain ⟨payload, hpayload, hstale⟩ := List.any_eq_true.1 hstale
  obtain ⟨entry, hentry, hstale⟩ := List.any_eq_true.1 hstale
  have hshows := (h _ _ visits (Prog.history_playVisits ..) rfl keyed_oneProfile v hv hlookup).2 payload hpayload
  exact AccountDatabase.not_shows_of_outdates hstale (hshows.shows hentry)

end Runs

end Lqxp
