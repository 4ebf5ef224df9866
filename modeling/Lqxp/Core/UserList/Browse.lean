import Lqxp.Core.UserList
import Lqxp.Core.UserList.Order

/-!
This module contains the round trip of the cursors of the account browse through their text form, and the proof that
the pages of the browse are those of a keyset pagination over the sorted listing of the accounts.
-/

namespace Lqxp

/--
An id that a cursor can carry.
-/
structure PlainId (id : String) : Prop where
  ne_empty : id ≠ ""
  len : Text.len id ≤ 64
  colon : ':' ∉ id.toList
  space : ∀ c ∈ id.toList, Text.isWhitespace c = false

def UserListSort.behind (sort : UserListSort) (user : AuthenticatedUser) : Position :=
  match sort with
  | .username => { created := 0, id := user.id, name := user.username }
  | .newest | .oldest => { created := user.createdAt, id := user.id, name := "" }

theorem checkCursorId_eq_ok {id : String} (h : PlainId id) : checkCursorId id = .ok id := by
  have hlen : ¬ 64 < Text.len id := by
    have := h.len
    omega
  simp [checkCursorId, h.ne_empty, hlen]

theorem decodeTimeCursor_eq_ok {id : String} {created : Nat} (h : PlainId id) (hcreated : created < 2 ^ 63)
    : decodeTimeCursor (toString created ++ ":" ++ id) = .ok (some (.time created id)) := by
  have hsplit : Text.splitOnce ':' (toString created ++ ":" ++ id) = some (toString created, id) :=
    Text.splitOnce_append (Text.not_mem_toString rfl created) id
  rw [decodeTimeCursor, hsplit]
  dsimp only
  rw [Text.parseI64_toString hcreated]
  dsimp only
  rw [checkCursorId_eq_ok h]
  rfl

theorem decodeNameCursor_eq_ok {id username : String} (h : PlainId id) (hne : username ≠ "")
    (hlen : username.toList.length ≤ 128)
    : decodeNameCursor (username ++ ":" ++ id) = .ok (some (.name username id)) := by
  have hsplit : Text.rsplitOnce ':' (username ++ ":" ++ id) = some (username, id) :=
    Text.rsplitOnce_append h.colon username
  have hlen' : ¬ 128 < username.toList.length := by omega
  rw [decodeNameCursor, hsplit]
  dsimp only
  rw [checkCursorId_eq_ok h, decide_eq_false hne, decide_eq_false hlen']
  rfl

theorem trim_tagged {id tag : String} (h : PlainId id) (middle : String)
    (htag : ∃ c cs, tag.toList = c :: cs ∧ Text.isWhitespace c = false)
    : Text.trim (tag ++ middle ++ ":" ++ id) = tag ++ middle ++ ":" ++ id := by
  obtain ⟨c, cs, htag, hc⟩ := htag
  apply Text.trim_eq_self
  constructor
  . intro c' hc'
    simp only [String.toList_append, htag, List.cons_append, List.head?_cons, Option.mem_def,
      Option.some.injEq] at hc'
    exact hc' ▸ hc
  . intro c' hc'
    have hne : id.toList ≠ [] := by simpa using h.ne_empty
    rw [String.toList_append, List.getLast?_append_of_ne_nil _ hne] at hc'
    exact h.space c' (List.mem_of_getLast? hc')

theorem exists_cursor_of_cursorText {user : AuthenticatedUser} (hid : PlainId user.id)
    (hne : user.username ≠ "") (hlen : user.username.toList.length ≤ 128)
    (hcreated : user.createdAt < 2 ^ 63) (sort : UserListSort)
    : ∃ cursor, decodeUserCursor (sort.cursorText user) = .ok (some cursor)
        ∧ sort.position (some cursor) = .ok (sort.behind user) := by
  have htime : decodeUserCursor ("t:" ++ toString user.createdAt ++ ":" ++ user.id)
      = .ok (some (.time user.createdAt user.id)) := by
    have htrim : Text.trim ("t:" ++ toString user.createdAt ++ ":" ++ user.id) = _ :=
      trim_tagged hid (toString user.createdAt) ⟨'t', [':'], rfl, rfl⟩
    have hstrip := Text.stripPrefix_append "t:" (toString user.createdAt ++ ":" ++ user.id)
    rw [← String.append_assoc, ← String.append_assoc] at hstrip
    rw [decodeUserCursor, htrim, if_neg (by simp), hstrip]
    exact decodeTimeCursor_eq_ok hid hcreated
  cases sort with
  | newest => exact ⟨_, htime, rfl⟩
  | oldest => exact ⟨_, htime, rfl⟩
  | username =>
    refine ⟨.name user.username user.id, ?_, rfl⟩
    have htrim : Text.trim ("u:" ++ user.username ++ ":" ++ user.id) = _ :=
      trim_tagged hid user.username ⟨'u', [':'], rfl, rfl⟩
    have hstrip := Text.stripPrefix_append "u:" (user.username ++ ":" ++ user.id)
    rw [← String.append_assoc, ← String.append_assoc] at hstrip
    have hother : Text.stripPrefix "t:" ("u:" ++ user.username ++ ":" ++ user.id) = none := by
      simp [Text.stripPrefix, Text.startsWith]
    rw [UserListSort.cursorText, decodeUserCursor, htrim, if_neg (by simp), hother, hstrip]
    exact decodeNameCursor_eq_ok hid hne hlen

end Lqxp

namespace Lqxp

variable {b : Backend} {adminIds : List String} {table : List UserRow}

def UserRow.decodes (row : UserRow) : Bool :=
  row.disabled.isInteger && row.banned.isInteger && row.createdAt.isInteger

/--
A row that the server itself has written.
-/
structure UserRow.Regular (row : UserRow) : Prop where
  id : PlainId row.id
  username : row.username ≠ ""
  username_len : row.username.toList.length ≤ 128
  createdAt : ∃ n : Nat, row.createdAt = .integer n ∧ n < 2 ^ 63

def UserRow.publicUser (b : Backend) (adminIds : List String) (table : List UserRow) (row : UserRow)
    : Option AuthenticatedUser :=
  (row.decode b table).map (·.publicUser adminIds)

theorem UserRow.isSome_publicUser (row : UserRow)
    : (row.publicUser b adminIds table).isSome = row.decodes := by
  rw [publicUser, Option.isSome_map, decode, decodes]
  cases row.disabled <;> cases row.banned <;> cases row.createdAt <;> rfl

theorem UserRow.exists_decode {row : UserRow} (table : List UserRow) (h : row.decodes)
    : ∃ user, row.decode b table = some user := by
  rw [← @UserRow.isSome_publicUser b [] table, UserRow.publicUser, Option.isSome_map] at h
  exact Option.isSome_iff_exists.1 h

theorem UserRow.columns_of_decode {row : UserRow} {user : RankedUser} (h : row.decode b table = some user)
    : user.id = row.id ∧ user.username = row.username ∧ user.userRank = Lqxp.userRank b table row
        ∧ user.customBadges = b.badgesFromJson row.customBadgesJson := by
  unfold UserRow.decode at h
  split at h
  . obtain rfl := Option.some.inj h
    exact ⟨rfl, rfl, rfl, rfl⟩
  . contradiction

/--
The key of the row that an account has been decoded from.
-/
def UserListSort.userKey (b : Backend) (sort : UserListSort) (user : AuthenticatedUser) : SortKey :=
  match sort with
  | .username => (.text (b.sqlLower user.username), user.id)
  | .newest | .oldest => (.integer user.createdAt, user.id)

theorem UserListSort.positionKey_behind (sort : UserListSort) (user : AuthenticatedUser)
    : sort.positionKey b (sort.behind user) = sort.userKey b user := by
  cases sort <;> rfl

@[simp]
theorem UserListSort.userKey_snd (sort : UserListSort) (user : AuthenticatedUser)
    : (sort.userKey b user).2 = user.id := by
  cases sort <;> rfl

/--
What a page shows of a row that the server has written.
-/
structure Shows (row : UserRow) (user : AuthenticatedUser) : Prop where
  id : user.id = row.id
  username : user.username = row.username
  createdAt : row.createdAt = .integer user.createdAt
  createdAt_lt : user.createdAt < 2 ^ 63

theorem UserRow.shows_of_publicUser {row : UserRow} {user : AuthenticatedUser} (hrow : row.Regular)
    (h : row.publicUser b adminIds table = some user) : Shows row user := by
  obtain ⟨n, hcreated, hn⟩ := hrow.createdAt
  obtain ⟨stored, hdecode, rfl⟩ := Option.map_eq_some_iff.1 h
  unfold decode at hdecode
  split at hdecode
  next disabled banned createdAt _ _ hcreated' =>
    obtain rfl := Option.some.inj hdecode
    obtain rfl : createdAt = n := by simpa using hcreated'.symm.trans hcreated
    have hvalue : ((n : Int) % 2 ^ 64).toNat = n := by omega
    refine ⟨rfl, rfl, ?_, ?_⟩
    . rw [hcreated, RankedUser.publicUser, hvalue]
    . rw [RankedUser.publicUser, hvalue]
      exact hn
  next => contradiction

theorem Shows.userKey {row : UserRow} {user : AuthenticatedUser} (h : Shows row user) (sort : UserListSort)
    : sort.userKey b user = sort.key b row := by
  cases sort <;> simp [UserListSort.userKey, UserListSort.key, h.id, h.username, h.createdAt]

theorem Shows.cursor {row : UserRow} {user : AuthenticatedUser} (h : Shows row user) (hrow : row.Regular)
    (sort : UserListSort)
    : ∃ cursor, decodeUserCursor (sort.cursorText user) = .ok (some cursor)
        ∧ sort.position (some cursor) = .ok (sort.behind user) := by
  apply exists_cursor_of_cursorText
  . exact h.id ▸ hrow.id
  . exact h.username ▸ hrow.username
  . exact h.username ▸ hrow.username_len
  . exact h.createdAt_lt

section FilterMap

variable {α β : Type} {f : α → Option β} {p : α → Bool}

theorem take_filterMap (hf : ∀ a, (f a).isSome = p a) (l : List α) (n : Nat)
    : (l.filterMap f).take n = ((l.filter p).take n).filterMap f := by
  induction l generalizing n with
  | nil => simp
  | cons a l ih =>
    cases hfa : f a with
    | none =>
      have hp : p a = false := by rw [← hf a, hfa]; rfl
      rw [List.filterMap_cons_none hfa, List.filter_cons_of_neg (by simp [hp]), ih]
    | some v =>
      have hp : p a := by rw [← hf a, hfa]; rfl
      rw [List.filterMap_cons_some hfa, List.filter_cons_of_pos hp]
      cases n with
      | zero => rfl
      | succ n => rw [List.take_succ_cons, List.take_succ_cons, List.filterMap_cons_some hfa, ih]

theorem getLast?_filterMap (hf : ∀ a, (f a).isSome = p a) {l : List α} (hl : ∀ a ∈ l, p a)
    : (l.filterMap f).getLast? = l.getLast?.bind f := by
  cases hlast : l.getLast? with
  | none =>
    rw [List.getLast?_eq_none_iff] at hlast
    simp [hlast]
  | some last =>
    obtain ⟨init, rfl⟩ := List.getLast?_eq_some_iff.1 hlast
    obtain ⟨v, hv⟩ := Option.isSome_iff_exists.1 ((hf last).trans (hl last (by simp)))
    simp [List.filterMap_append, hv]

end FilterMap

theorem map_take_decode (rows : List UserRow) (n : Nat)
    : ((rows.filterMap (·.decode b table)).take n).map (·.publicUser adminIds)
        = ((rows.filter UserRow.decodes).take n).filterMap (·.publicUser b adminIds table) := by
  rw [← take_filterMap UserRow.isSome_publicUser, List.map_take, List.map_filterMap]
  rfl

theorem listUsersPage_eq (hb : b.Lawful) (hids : DistinctIds table) (filter : UserListFilter)
    (limit : Nat) {cursor : Option String} {decoded : Option UserListCursor} {after : Position}
    (hcursor : decodeUserCursor (cursor.getD "") = .ok decoded)
    (hafter : filter.sort.position decoded = .ok after)
    : ∃ page, listUsersPage b adminIds table filter limit cursor = .ok page
        ∧ let shown := Keyset.page UserRow.decodes (clampLimit limit)
            (Keyset.after (filter.sort.precedes b) (filter.sort.key b) (filter.sort.positionKey b after)
              (filter.listing b adminIds table))
          page.users = shown.1.filterMap (·.publicUser b adminIds table)
            ∧ page.next = shown.2.bind fun row =>
              (row.publicUser b adminIds table).map filter.sort.cursorText := by
  rw [listUsersPage, hcursor]
  dsimp only [bind, Except.bind]
  rw [hafter]
  by_cases hnobody : filter.status = .admin && adminIds = []
  . simp only [Bool.and_eq_true, decide_eq_true_eq] at hnobody
    have hnone : filter.listing b adminIds table = [] := by
      rw [UserListFilter.listing, List.filter_eq_nil_iff.2, List.mergeSort_nil]
      intro row _
      simp [UserListFilter.selects, UserListFilter.selectsStatus, hnobody]
    refine ⟨{ users := [], next := none, skipped := 0 }, ?_, ?_⟩
    . simp [hnobody, pure, Except.pure]
    . simp [hnone, Keyset.after, Keyset.page]
  . dsimp only
    rw [if_neg hnobody, mergeSort_keyset hb hids filter after]
    refine ⟨_, rfl, map_take_decode .., ?_⟩
    dsimp only [decodeStoredRows, Keyset.page]
    rw [map_take_decode]
    split
    . rw [getLast?_filterMap UserRow.isSome_publicUser fun row hrow =>
        (List.mem_filter.1 (List.mem_of_mem_take hrow)).2, Option.map_bind]
      rfl
    . rfl

theorem UserListFilter.mem_listing {filter : UserListFilter} {row : UserRow}
    : row ∈ filter.listing b adminIds table ↔ row ∈ table ∧ filter.selects b adminIds table row := by
  rw [listing, List.mem_mergeSort, List.mem_filter]

theorem map_userKey_publicUser (sort : UserListSort) {rows : List UserRow}
    (h : ∀ row ∈ rows, row.decodes ∧ row.Regular)
    : (rows.filterMap (·.publicUser b adminIds table)).map (sort.userKey b) = rows.map (sort.key b) := by
  induction rows with
  | nil => rfl
  | cons row rows ih =>
    obtain ⟨hdecodes, hregular⟩ := h row (by simp)
    obtain ⟨user, huser⟩ := Option.isSome_iff_exists.1 (row.isSome_publicUser.trans hdecodes)
    rw [List.filterMap_cons_some huser, List.map_cons, List.map_cons,
      (row.shows_of_publicUser hregular huser).userKey, ih fun row hrow => h row (by simp [hrow])]

theorem browseUsers_eq (hb : b.Lawful) {tables : Nat → List UserRow} (hids : ∀ j, DistinctIds (tables j))
    (hregular : ∀ j, ∀ row ∈ tables j, row.decodes → row.Regular) (filter : UserListFilter) (limit : Nat)
    {fuel j : Nat} {cursor : Option String} {decoded : Option UserListCursor} {after : Position}
    (hcursor : decodeUserCursor (cursor.getD "") = .ok decoded)
    (hafter : filter.sort.position decoded = .ok after)
    : ∃ result, browseUsers b adminIds tables filter limit fuel j cursor = .ok result
        ∧ result.map (·.map (filter.sort.userKey b))
          = (Keyset.walk (filter.sort.precedes b) (filter.sort.key b) UserRow.decodes (clampLimit limit)
              (fun j => filter.listing b adminIds (tables j)) fuel j (filter.sort.positionKey b after)).map
            (·.map (filter.sort.key b)) := by
  induction fuel generalizing j cursor decoded after with
  | zero => exact ⟨none, rfl, rfl⟩
  | succ fuel ih =>
    obtain ⟨page, hpage, husers, hnext⟩ : ∃ page, listUsersPage b adminIds (tables j) filter limit cursor
        = .ok page ∧ _ := listUsersPage_eq hb (hids j) filter limit hcursor hafter
    rw [browseUsers, hpage, Keyset.walk]
    dsimp only [bind, Except.bind]
    generalize hshown : Keyset.page UserRow.decodes (clampLimit limit) (Keyset.after (filter.sort.precedes b)
      (filter.sort.key b) (filter.sort.positionKey b after) (filter.listing b adminIds (tables j))) = res at husers hnext
    have hrows : ∀ row ∈ res.1, row.decodes ∧ row.Regular := by
      intro row hrow
      obtain ⟨hmem, hdecodes⟩ := Keyset.mem_page (hshown ▸ hrow)
      obtain ⟨htable, -⟩ := UserListFilter.mem_listing.1 (Keyset.mem_after.1 hmem).1
      exact ⟨hdecodes, hregular j row htable hdecodes⟩
    have hkeys : page.users.map (filter.sort.userKey b) = res.1.map (filter.sort.key b) := by
      rw [husers, map_userKey_publicUser filter.sort hrows]
    obtain ⟨shown, last⟩ := res
    cases last with
    | none =>
      rw [hnext]
      exact ⟨some page.users, rfl, congrArg some hkeys⟩
    | some row =>
      have hmem : row ∈ shown := by
        have hlast := Keyset.last_mem_page (congrArg Prod.snd hshown)
        rwa [hshown] at hlast
      obtain ⟨hdecodes, hrow⟩ := hrows row hmem
      obtain ⟨user, huser⟩ : ∃ user, row.publicUser b adminIds (tables j) = some user :=
        Option.isSome_iff_exists.1 (row.isSome_publicUser.trans hdecodes)
      have hshows := row.shows_of_publicUser hrow huser
      obtain ⟨decoded', hcursor', hafter'⟩ := hshows.cursor hrow filter.sort
      have hnext' : page.next = some (filter.sort.cursorText user) := by
        rw [hnext]
        simp [huser]
      rw [hnext']
      obtain ⟨rest, hrest, hwalk⟩ : ∃ rest, browseUsers b adminIds tables filter limit fuel (j + 1)
          (some (filter.sort.cursorText user)) = .ok rest ∧ _ := ih hcursor' hafter'
      rw [filter.sort.positionKey_behind, hshows.userKey] at hwalk
      dsimp only
      rw [hrest]
      refine ⟨rest.map (page.users ++ ·), rfl, ?_⟩
      rw [Option.map_map, Option.map_map]
      have hleft : (List.map (filter.sort.userKey b)) ∘ (page.users ++ ·)
          = (shown.map (filter.sort.key b) ++ ·) ∘ (List.map (filter.sort.userKey b)) := by
        funext users
        simp [hkeys]
      have hright : (List.map (filter.sort.key b)) ∘ (shown ++ ·)
          = (shown.map (filter.sort.key b) ++ ·) ∘ (List.map (filter.sort.key b)) := by
        funext rows
        simp
      rw [hleft, hright, ← Option.map_map, ← Option.map_map, hwalk]

end Lqxp
