import Mathlib.Data.Set.Finite.List
import Mathlib.Data.String.Basic
import Lqxp.Core.UserList.Browse

/-!
This module contains the completeness of the account browse: every account that is there all the time is
shown exactly once, in order, while others are being created. Malformed rows are skipped, but where too many of
them come in a row, the browse ends in front of the accounts behind them.
-/

namespace Lqxp

section FinitelyManyKeys

theorem finite_texts (n : Nat) : {s : String | s.toList.length ≤ n}.Finite := by
  have hchar : Finite Char := by
    refine Finite.of_injective (fun c : Char => c.val.toFin) fun c d h => ?_
    exact Char.ext (UInt32.toFin_inj.1 h)
  have hinj : Set.InjOn String.toList {s : String | s.toList.length ≤ n} :=
    fun s _ t _ h => String.toList_injective h
  refine Set.Finite.of_finite_image ((List.finite_length_le Char n).subset ?_) hinj
  rintro - ⟨s, hs, rfl⟩
  exact hs

theorem length_toList_le_len (s : String) : s.toList.length ≤ Text.len s := by
  rw [← String.ofList_toList (s := s), String.toList_ofList]
  induction s.toList with
  | nil => exact Nat.zero_le _
  | cons c cs ih =>
    have hpos := c.utf8Size_pos
    rw [Text.len] at *
    rw [String.ofList_cons, String.utf8ByteSize_append, String.utf8ByteSize_singleton, List.length_cons]
    omega

/--
The keys that the rows written by the server can have.
-/
def regularKeys (b : Backend) : Set SortKey :=
  (((fun n : Nat => SqlValue.integer n) '' {n | n < 2 ^ 63})
      ∪ ((fun name => .text (b.sqlLower name)) '' {name | name.toList.length ≤ 128}))
    ×ˢ {id | id.toList.length ≤ 64}

theorem finite_regularKeys (b : Backend) : (regularKeys b).Finite :=
  (((Set.finite_lt_nat _).image _).union ((finite_texts 128).image _)).prod (finite_texts 64)

theorem UserRow.Regular.key_mem {b : Backend} {row : UserRow} (h : row.Regular) (sort : UserListSort)
    : sort.key b row ∈ regularKeys b := by
  obtain ⟨n, hcreated, hn⟩ := h.createdAt
  have hid : row.id.toList.length ≤ 64 := (length_toList_le_len row.id).trans h.id.len
  cases sort with
  | newest | oldest => exact ⟨.inl ⟨n, hn, hcreated.symm⟩, hid⟩
  | username => exact ⟨.inr ⟨row.username, h.username_len, rfl⟩, hid⟩

end FinitelyManyKeys

variable {b : Backend} {adminIds : List String}

/--
The row is not put before the start of the newest first order by its time and id.
-/
def UserRow.Reachable (b : Backend) (sort : UserListSort) (row : UserRow) : Prop :=
  sort = .newest → row.createdAt = .integer i64Max → b.textLt row.id cursorHighId

namespace UserListSort

def start : UserListSort → Position
  | .newest => { created := i64Max, id := cursorHighId, name := "" }
  | .oldest => { created := i64Min, id := "", name := "" }
  | .username => { created := 0, id := "", name := "" }

theorem position_none (sort : UserListSort) : sort.position none = .ok sort.start := by
  cases sort <;> rfl

theorem precedes_start_iff (hb : b.Lawful) {row : UserRow} (hrow : row.Regular) (sort : UserListSort)
    : sort.precedes b (sort.positionKey b sort.start) (sort.key b row) ↔ row.Reachable b sort := by
  obtain ⟨n, hcreated, hn⟩ := hrow.createdAt
  unfold precedes UserRow.Reachable
  cases sort with
  | newest =>
    dsimp only [key, positionKey, start]
    rw [SortKey.lt_iff, hcreated, SqlValue.lt, decide_eq_true_eq, SqlValue.integer.injEq]
    have hmax : (n : Int) < i64Max ∨ (n : Int) = i64Max := by
      unfold i64Max
      omega
    rcases hmax with hlt | heq
    . simp [hlt, Int.ne_of_lt hlt]
    . simp [heq]
  | oldest =>
    dsimp only [key, positionKey, start]
    rw [SortKey.lt_iff, hcreated, SqlValue.lt, decide_eq_true_eq]
    have hmin : i64Min < (n : Int) := by
      unfold i64Min
      omega
    simp [hmin]
  | username =>
    dsimp only [key, positionKey, start]
    rw [SortKey.lt_iff, hb.lower_empty, SqlValue.lt, SqlValue.text.injEq]
    by_cases hlower : b.sqlLower row.username = ""
    . simp [hlower, hb.empty _ hrow.id.ne_empty]
    . simp [hb.empty _ hlower]

end UserListSort

/--
The browse is complete: on tables that grow while it goes on, it ends and shows every account that was there
at the start and passes the filter exactly once, in order. `extra` is asked of the table at the start.
-/
def BrowseComplete (extra : Backend → UserListSort → UserRow → Prop) : Prop :=
  ∀ (b : Backend) (adminIds : List String) (filter : UserListFilter) (limit : Nat)
    (tables : Nat → List UserRow),
    b.Lawful → (∀ j, DistinctIds (tables j)) → (∀ j, ∀ row ∈ tables j, row.decodes ∧ row.Regular) →
    (∀ j, tables j ⊆ tables (j + 1)) →
    (∀ j, ∀ row ∈ tables 0,
      filter.selects b adminIds (tables j) row = filter.selects b adminIds (tables 0) row) →
    (∀ row ∈ tables 0, extra b filter.sort row) →
    ∃ fuel users, browseUsers b adminIds tables filter limit fuel 0 none = .ok (some users)
      ∧ users.Pairwise (fun user user' =>
        filter.sort.precedes b (filter.sort.userKey b user) (filter.sort.userKey b user'))
      ∧ (users.map (·.id)).filter (fun id => (tables 0).any (·.id = id))
        = (filter.listing b adminIds (tables 0)).map (·.id)

/--
An engine that compares texts by their code points and does not change case.
-/
def plainBackend : Backend where
  hashSecret := fun _ s => s
  verifySecret := fun s t => s = t
  toLowercase := id
  isAlphanumeric := Char.isAlphanum
  sqlLower := id
  sqlLike := fun _ _ => true
  blocklistTerms := []
  textLt := fun s t => s < t
  profileFromJson := fun _ => {}
  badgesFromJson := fun _ => []

theorem lawful_plainBackend : plainBackend.Lawful where
  irrefl s := decide_eq_false (lt_irrefl s)
  trans s t u hst htu := decide_eq_true (lt_trans (of_decide_eq_true hst) (of_decide_eq_true htu))
  trichotomous s t := by
    simpa [plainBackend] using lt_trichotomy s t
  empty s h := decide_eq_true (by
    rw [String.lt_iff_toList_lt]
    cases hs : s.toList with
    | nil => exact absurd (by simpa using hs) h
    | cons c cs => exact List.nil_lt_cons c cs)
  lower_empty := rfl

theorem forall_not_isWhitespace {s : String} (h : (s.toList.all fun c => !Text.isWhitespace c) = true)
    : ∀ c ∈ s.toList, Text.isWhitespace c = false := by
  intro c hc
  simpa using List.all_eq_true.1 h c hc

/--
An account of the last millisecond whose id does not come before the start of the newest first order.
-/
def lastRow : UserRow := { id := cursorHighId, username := "last", createdAt := .integer i64Max }

theorem decodes_lastRow : lastRow.decodes ∧ lastRow.Regular := by
  refine ⟨rfl, ?_⟩
  exact
    { id := { ne_empty := by decide, len := by decide, colon := by decide, space := forall_not_isWhitespace (by decide) },
      username := by decide, username_len := by decide,
      createdAt := ⟨2 ^ 63 - 1, by decide, by decide⟩ }

/--
Such an account is never shown.
-/
theorem not_browseComplete : ¬ BrowseComplete fun _ _ _ => True := by
  intro h
  have hrow (row : UserRow) (hmem : row ∈ [lastRow]) : row.decodes ∧ row.Regular :=
    List.mem_singleton.1 hmem ▸ decodes_lastRow
  obtain ⟨fuel, users, hbrowse, -, hids⟩ := h plainBackend [] {} 1 (fun _ => [lastRow]) lawful_plainBackend
    (fun _ => by simp [DistinctIds]) (fun _ => hrow) (fun _ => List.Subset.refl _) (fun _ _ _ => rfl)
    (fun _ _ => trivial)
  have hpage : listUsersPage plainBackend [] [lastRow] {} 1 none
      = .ok { users := [], next := none, skipped := 0 } := by
    have hskip : keyset plainBackend .newest { created := i64Max, id := cursorHighId, name := "" } lastRow
        = false := by decide
    have hcursor : decodeUserCursor "" = .ok none := by decide
    simp [listUsersPage, hcursor, UserListSort.position, hskip, decodeStoredRows, bind, Except.bind, pure,
      Except.pure]
  cases fuel with
  | zero => simp [browseUsers] at hbrowse
  | succ fuel =>
    rw [browseUsers, hpage] at hbrowse
    obtain rfl : users = [] := by simpa [bind, Except.bind, pure, Except.pure] using hbrowse.symm
    have hlisting : UserListFilter.listing plainBackend [] [lastRow] {} = [lastRow] := by
      simp [UserListFilter.listing, UserListFilter.selects, UserListFilter.selectsStatus]
    rw [hlisting] at hids
    simp at hids

theorem row_eq_of_id_eq {table : List UserRow} (hids : DistinctIds table) {row row' : UserRow}
    (hrow : row ∈ table) (hrow' : row' ∈ table) (h : row.id = row'.id) : row = row' :=
  List.inj_on_of_nodup_map hids hrow hrow' h

theorem filter_shown_eq {filter : UserListFilter} {tables : Nat → List UserRow} (hb : b.Lawful)
    (hids : ∀ j, DistinctIds (tables j)) (hgrow : ∀ j, tables 0 ⊆ tables j)
    (hstable : ∀ j, ∀ row ∈ tables 0,
      filter.selects b adminIds (tables j) row = filter.selects b adminIds (tables 0) row)
    {shown : List UserRow} (hsorted : Keyset.Sorted (filter.sort.precedes b) (filter.sort.key b) shown)
    (hsound : ∀ row ∈ shown, ∃ j, row ∈ filter.listing b adminIds (tables j))
    (hcomplete : ∀ row ∈ filter.listing b adminIds (tables 0), row ∈ shown)
    : shown.filter (fun row => (tables 0).any (·.id = row.id)) = filter.listing b adminIds (tables 0) := by
  have := UserListSort.isStrictOrder_precedes hb filter.sort
  have hlisting : Keyset.Sorted (filter.sort.precedes b) (filter.sort.key b)
      (filter.listing b adminIds (tables 0)) := sorted_listing hb (hids 0) filter
  have hnodup {rows : List UserRow}
      (h : Keyset.Sorted (filter.sort.precedes b) (filter.sort.key b) rows) : rows.Nodup := by
    refine List.Pairwise.imp (fun {row row'} hlt heq => ?_) h
    subst heq
    exact irrefl_of _ _ hlt
  refine List.Perm.eq_of_pairwise (fun row row' _ _ h h' => absurd h' (asymm_of _ h))
    (hsorted.filter _) hlisting ?_
  refine (List.perm_ext_iff_of_nodup ((hnodup hsorted).filter _) (hnodup hlisting)).2 fun row => ?_
  constructor
  . intro hmem
    obtain ⟨hshown, hstart⟩ := List.mem_filter.1 hmem
    obtain ⟨row', hrow', hid⟩ := List.any_eq_true.1 hstart
    obtain ⟨j, hlisted⟩ := hsound row hshown
    obtain ⟨htable, hselects⟩ := UserListFilter.mem_listing.1 hlisted
    obtain rfl := row_eq_of_id_eq (hids j) htable (hgrow j hrow') (of_decide_eq_true hid).symm
    exact UserListFilter.mem_listing.2 ⟨hrow', hstable j row hrow' ▸ hselects⟩
  . intro hlisted
    have htable := (UserListFilter.mem_listing.1 hlisted).1
    exact List.mem_filter.2 ⟨hcomplete row hlisted, List.any_eq_true.2 ⟨row, htable, by simp⟩⟩

theorem ids_eq_of_keys_eq {sort : UserListSort} {users : List AuthenticatedUser} {rows : List UserRow}
    (h : users.map (sort.userKey b) = rows.map (sort.key b)) : users.map (·.id) = rows.map (·.id) := by
  have hsnd := congrArg (List.map Prod.snd) h
  simpa [List.map_map, Function.comp_def] using hsnd

theorem clampLimit_pos (limit : Nat) : 0 < clampLimit limit := by
  unfold clampLimit
  omega

/--
As long as no account of the last millisecond has an id that does not come before the start.
-/
theorem browseComplete : BrowseComplete fun b sort row => row.Reachable b sort := by
  intro b adminIds filter limit tables hb hids hregular hgrow hstable hreachable
  have := UserListSort.isStrictOrder_precedes hb filter.sort
  have hstart (j : Nat) : tables 0 ⊆ tables j := by
    induction j with
    | zero => exact List.Subset.refl _
    | succ j ih => exact fun row hrow => hgrow j (ih hrow)
  have hlisted (j : Nat) {row : UserRow} (hrow : row ∈ filter.listing b adminIds (tables j))
      : row.decodes ∧ row.Regular := hregular j row (UserListFilter.mem_listing.1 hrow).1
  obtain ⟨fuel, shown, hwalk⟩ : ∃ fuel shown, Keyset.walk (filter.sort.precedes b) (filter.sort.key b)
      UserRow.decodes (clampLimit limit) (fun j => filter.listing b adminIds (tables j)) fuel 0
      (filter.sort.positionKey b filter.sort.start) = some shown :=
    Keyset.exists_walk_eq_some (clampLimit_pos limit) (finite_regularKeys b)
      (fun j row hrow => (hlisted j hrow).2.key_mem filter.sort) 0 _
  obtain ⟨hsorted, hsound, hcomplete⟩ := Keyset.walk_complete (clampLimit_pos limit)
    (fun j => sorted_listing hb (hids j) filter) (fun j row hrow => (hlisted j hrow).1) hwalk
  obtain ⟨result, hbrowse, hresult⟩ : ∃ result, browseUsers b adminIds tables filter limit fuel 0 none
      = .ok result ∧ _ := browseUsers_eq hb hids (fun j row hrow _ => (hregular j row hrow).2) filter limit
    rfl filter.sort.position_none
  rw [hwalk] at hresult
  obtain ⟨users, rfl, hkeys⟩ := Option.map_eq_some_iff.1 hresult
  refine ⟨fuel, users, hbrowse, ?_, ?_⟩
  . have hpairwise : (users.map (filter.sort.userKey b)).Pairwise (filter.sort.precedes b) := by
      rw [hkeys]
      exact List.pairwise_map.2 hsorted
    exact List.pairwise_map.1 hpairwise
  . rw [ids_eq_of_keys_eq hkeys, List.filter_map, ← filter_shown_eq hb hids hstart hstable hsorted
      (fun row hrow => (hsound row hrow).2) fun row hrow => ?_]
    . rfl
    . obtain ⟨htable, hselects⟩ := UserListFilter.mem_listing.1 hrow
      refine hcomplete row (fun j => ?_) ?_
      . exact UserListFilter.mem_listing.2 ⟨hstart j htable, (hstable j row htable).trans hselects⟩
      . exact (filter.sort.precedes_start_iff hb (hlisted 0 hrow).2).2 (hreachable row htable)

def annaRow : UserRow := { id := "100", username := "an:na", createdAt := .integer 1000 }

theorem decodes_annaRow : annaRow.decodes ∧ annaRow.Regular :=
  ⟨rfl,
    { id := { ne_empty := by decide, len := by decide, colon := by decide, space := forall_not_isWhitespace (by decide) },
      username := by decide, username_len := by decide, createdAt := ⟨1000, rfl, by decide⟩ }⟩

def borisRow : UserRow := { id := "200", username := "boris", createdAt := .integer 2000 }

def carlRow : UserRow := { id := "300", username := "carl", createdAt := .integer 400 }

def doraRow : UserRow := { id := "400", username := "dora", createdAt := .integer 1500 }

/--
Dora's account, which belongs between those of Boris and Anna, is inserted after the first page has been shown.
-/
def growingTable : Nat → List UserRow
  | 0 => [borisRow, annaRow, carlRow]
  | _ + 1 => [borisRow, doraRow, annaRow, carlRow]

def sinceFiveHundred : UserListFilter := { createdAfter := some 500 }

theorem regular_growingTable (j : Nat) : ∀ row ∈ growingTable j, row.decodes ∧ row.Regular := by
  have hboris : borisRow.decodes ∧ borisRow.Regular :=
    ⟨rfl,
      { id := { ne_empty := by decide, len := by decide, colon := by decide, space := forall_not_isWhitespace (by decide) },
        username := by decide, username_len := by decide, createdAt := ⟨2000, rfl, by decide⟩ }⟩
  have hcarl : carlRow.decodes ∧ carlRow.Regular :=
    ⟨rfl,
      { id := { ne_empty := by decide, len := by decide, colon := by decide, space := forall_not_isWhitespace (by decide) },
        username := by decide, username_len := by decide, createdAt := ⟨400, rfl, by decide⟩ }⟩
  have hdora : doraRow.decodes ∧ doraRow.Regular :=
    ⟨rfl,
      { id := { ne_empty := by decide, len := by decide, colon := by decide, space := forall_not_isWhitespace (by decide) },
        username := by decide, username_len := by decide, createdAt := ⟨1500, rfl, by decide⟩ }⟩
  cases j <;> simp [growingTable, hboris, decodes_annaRow, hcarl, hdora]

/--
The page made of the first ones of the rows that the query finds, in their order.
-/
def pageOf (b : Backend) (adminIds : List String) (table rows : List UserRow) (sort : UserListSort)
    (limit : Nat) : UserPage :=
  let rows := rows.take (clampLimit limit + 1)
  let (users, skipped) := decodeStoredRows b table rows
  let shown := (users.take (clampLimit limit)).map (·.publicUser adminIds)
  { users := shown
    next := if clampLimit limit < rows.length then shown.getLast?.map sort.cursorText else none
    skipped }

theorem listUsersPage_of_sorted {b : Backend} {adminIds : List String} {table : List UserRow}
    {filter : UserListFilter} {limit : Nat} {cursor : Option String} {position : Option UserListCursor}
    {after : Position} (rows : List UserRow) (hcursor : decodeUserCursor (cursor.getD "") = .ok position)
    (hposition : filter.sort.position position = .ok after) (hstatus : filter.status ≠ .admin)
    (hrows : (table.filter fun row => keyset b filter.sort after row && filter.selects b adminIds table row)
      = rows)
    (hsorted : rows.Pairwise fun row row' => (!filter.sort.before b row' row) = true)
    : listUsersPage b adminIds table filter limit cursor
        = .ok (pageOf b adminIds table rows filter.sort limit) := by
  simp [listUsersPage, hcursor, hposition, hrows, List.mergeSort_of_pairwise hsorted, hstatus, bind,
    Except.bind, pure, Except.pure, pageOf]

theorem browseUsers_growingTable
    : (browseUsers plainBackend [] growingTable sinceFiveHundred 1 3 0 none).map
        (·.map (·.map (·.id))) = .ok (some ["200", "400", "100"]) := by
  have hfirst : listUsersPage plainBackend [] (growingTable 0) sinceFiveHundred 1 none = .ok _ :=
    listUsersPage_of_sorted [borisRow, annaRow] rfl rfl (by decide) (by decide) (by decide)
  have hsecond : listUsersPage plainBackend [] (growingTable 1) sinceFiveHundred 1 (some "t:2000:200")
      = .ok _ :=
    listUsersPage_of_sorted [doraRow, annaRow] (by rfl) rfl (by decide) (by decide) (by decide)
  have hthird : listUsersPage plainBackend [] (growingTable 2) sinceFiveHundred 1 (some "t:1500:400")
      = .ok _ :=
    listUsersPage_of_sorted [annaRow] (by rfl) rfl (by decide) (by decide) (by decide)
  have hnext : (pageOf plainBackend [] (growingTable 0) [borisRow, annaRow] sinceFiveHundred.sort 1).next
      = some "t:2000:200" := by decide
  have hnext' : (pageOf plainBackend [] (growingTable 1) [doraRow, annaRow] sinceFiveHundred.sort 1).next
      = some "t:1500:400" := by decide
  have hlast : (pageOf plainBackend [] (growingTable 2) [annaRow] sinceFiveHundred.sort 1).next = none := by
    decide
  simp only [browseUsers, hfirst, hsecond, hthird, hnext, hnext', hlast, bind, Except.bind, Nat.zero_add,
    Nat.reduceAdd]
  rfl

theorem browseComplete_growing
    : (browseUsers plainBackend [] growingTable sinceFiveHundred 1 3 0 none).map
          (·.map (·.map (·.id))) = .ok (some ["200", "400", "100"])
        ∧ ∃ fuel users,
            browseUsers plainBackend [] growingTable sinceFiveHundred 1 fuel 0 none = .ok (some users)
              ∧ (users.map (·.id)).filter (fun id => (growingTable 0).any (·.id = id)) = ["200", "100"] := by
  refine ⟨browseUsers_growingTable, ?_⟩
  obtain ⟨fuel, users, hbrowse, -, hids⟩ := browseComplete plainBackend [] sinceFiveHundred 1 growingTable
    lawful_plainBackend
    (fun j => by cases j <;> simp [DistinctIds, growingTable, annaRow, borisRow, carlRow, doraRow])
    regular_growingTable
    (fun j => by cases j <;> simp [growingTable])
    (fun j row _ => rfl)
    (fun row hrow _ hlast => by
      have hcreated : ∀ row ∈ growingTable 0, row.createdAt ≠ .integer i64Max := by decide
      exact absurd hlast (hcreated row hrow))
  have hlisting : sinceFiveHundred.listing plainBackend [] (growingTable 0) = [borisRow, annaRow] := by
    have hselected : (growingTable 0).filter
        (sinceFiveHundred.selects plainBackend [] (growingTable 0)) = [borisRow, annaRow] := by decide
    rw [UserListFilter.listing, hselected]
    exact List.mergeSort_of_pairwise (by decide)
  rw [hlisting] at hids
  exact ⟨fuel, users, hbrowse, hids⟩

end Lqxp

namespace Lqxp

variable {b : Backend} {adminIds : List String}

/--
The browse of a table that stays as it is shows every account that decodes and passes the filter once.
-/
def ShowsDecodable (b : Backend) (adminIds : List String) (table : List UserRow) (filter : UserListFilter)
    (limit : Nat) : Prop :=
  ∃ fuel users, browseUsers b adminIds (fun _ => table) filter limit fuel 0 none = .ok (some users)
    ∧ (users.map (·.id)).Perm (((filter.listing b adminIds table).filter UserRow.decodes).map (·.id))

/--
The rows that the query for the first page selects, without its limit.
-/
def UserListFilter.selected (b : Backend) (adminIds : List String) (table : List UserRow)
    (filter : UserListFilter) : List UserRow :=
  Keyset.after (filter.sort.precedes b) (filter.sort.key b) (filter.sort.positionKey b filter.sort.start)
    (filter.listing b adminIds table)

variable {table : List UserRow} {filter : UserListFilter}

theorem filter_selected_eq_iff (hb : b.Lawful) (hregular : ∀ row ∈ table, row.decodes → row.Regular)
    : (filter.selected b adminIds table).filter UserRow.decodes
          = (filter.listing b adminIds table).filter UserRow.decodes
        ↔ ∀ row ∈ filter.listing b adminIds table, row.decodes → row.Reachable b filter.sort := by
  have hreach {row : UserRow} (hrow : row ∈ filter.listing b adminIds table) (hdecodes : row.decodes)
      : filter.sort.precedes b (filter.sort.positionKey b filter.sort.start) (filter.sort.key b row)
        ↔ row.Reachable b filter.sort :=
    filter.sort.precedes_start_iff hb (hregular row (UserListFilter.mem_listing.1 hrow).1 hdecodes)
  constructor
  . intro heq row hrow hdecodes
    have hmem := heq ▸ List.mem_filter.2 ⟨hrow, hdecodes⟩
    exact (hreach hrow hdecodes).1 (Keyset.mem_after.1 (List.mem_filter.1 hmem).1).2
  . intro h
    rw [UserListFilter.selected, Keyset.after, List.filter_filter]
    refine List.filter_congr fun row hrow => ?_
    cases hdecodes : row.decodes with
    | false => rfl
    | true => simp [(hreach hrow hdecodes).2 (h row hrow hdecodes)]

theorem ids_of_browseUsers (hb : b.Lawful) (hids : DistinctIds table)
    (hregular : ∀ row ∈ table, row.decodes → row.Regular) {limit fuel : Nat} {users : List AuthenticatedUser}
    (h : browseUsers b adminIds (fun _ => table) filter limit fuel 0 none = .ok (some users))
    : ∃ shown, Keyset.walk (filter.sort.precedes b) (filter.sort.key b) UserRow.decodes (clampLimit limit)
          (fun _ => filter.listing b adminIds table) fuel 0
          (filter.sort.positionKey b filter.sort.start) = some shown
        ∧ users.map (·.id) = shown.map (·.id) := by
  obtain ⟨result, hbrowse, hresult⟩ : ∃ result, browseUsers b adminIds (fun _ => table) filter limit fuel 0
      none = .ok result ∧ _ :=
    browseUsers_eq hb (fun _ => hids) (fun _ => hregular) filter limit rfl filter.sort.position_none
  obtain rfl : result = some users := Except.ok.inj (hbrowse.symm.trans h)
  obtain ⟨shown, hwalk, hkeys⟩ := Option.map_eq_some_iff.1 hresult.symm
  exact ⟨shown, hwalk, ids_eq_of_keys_eq hkeys.symm⟩

theorem exists_browseUsers_of_walk (hb : b.Lawful) (hids : DistinctIds table)
    (hregular : ∀ row ∈ table, row.decodes → row.Regular) {limit fuel : Nat} {shown : List UserRow}
    (h : Keyset.walk (filter.sort.precedes b) (filter.sort.key b) UserRow.decodes (clampLimit limit)
      (fun _ => filter.listing b adminIds table) fuel 0
      (filter.sort.positionKey b filter.sort.start) = some shown)
    : ∃ users, browseUsers b adminIds (fun _ => table) filter limit fuel 0 none = .ok (some users)
        ∧ users.map (·.id) = shown.map (·.id) := by
  obtain ⟨result, hbrowse, hresult⟩ : ∃ result, browseUsers b adminIds (fun _ => table) filter limit fuel 0
      none = .ok result ∧ _ :=
    browseUsers_eq hb (fun _ => hids) (fun _ => hregular) filter limit rfl filter.sort.position_none
  rw [h] at hresult
  obtain ⟨users, rfl, hkeys⟩ := Option.map_eq_some_iff.1 hresult
  exact ⟨users, hbrowse, ids_eq_of_keys_eq hkeys⟩

/--
The browse misses accounts exactly when the first query does or when more malformed rows than a page has
places come in a row before a row that decodes.
-/
theorem showsDecodable_iff (hb : b.Lawful) (hids : DistinctIds table)
    (hregular : ∀ row ∈ table, row.decodes → row.Regular) (limit : Nat)
    : ShowsDecodable b adminIds table filter limit
        ↔ (∀ row ∈ filter.listing b adminIds table, row.decodes → row.Reachable b filter.sort)
          ∧ Keyset.NoGap UserRow.decodes (clampLimit limit) (filter.selected b adminIds table) := by
  have := UserListSort.isStrictOrder_precedes hb filter.sort
  obtain ⟨fuel, shown, hwalk, hbegins, hgap⟩ : ∃ fuel shown, Keyset.walk (filter.sort.precedes b)
      (filter.sort.key b) UserRow.decodes (clampLimit limit) (fun _ => filter.listing b adminIds table) fuel 0
      (filter.sort.positionKey b filter.sort.start) = some shown ∧ _ :=
    Keyset.walk_constant (clampLimit_pos limit) (sorted_listing hb hids filter) 0 _
  rw [← filter_selected_eq_iff hb hregular, UserListFilter.selected, ← hgap]
  have hsub : ((filter.selected b adminIds table).filter UserRow.decodes).Sublist
      ((filter.listing b adminIds table).filter UserRow.decodes) := List.filter_sublist.filter _
  constructor
  . rintro ⟨fuel', users, hbrowse, hperm⟩
    obtain ⟨shown', hwalk', husers⟩ := ids_of_browseUsers hb hids hregular hbrowse
    obtain rfl := Keyset.walk_unique hwalk' hwalk
    have hlen := (husers ▸ hperm).length_eq
    rw [List.length_map, List.length_map] at hlen
    have hwhole := (hbegins.sublist.trans hsub).eq_of_length hlen
    have hselected := hsub.eq_of_length_le (hwhole ▸ hbegins.length_le)
    exact ⟨hselected, hwhole.trans hselected.symm⟩
  . rintro ⟨hselected, hshown⟩
    obtain ⟨users, hbrowse, husers⟩ := exists_browseUsers_of_walk hb hids hregular hwalk
    refine ⟨fuel, users, hbrowse, ?_⟩
    rw [husers, hshown, hselected]

def malformedRow (id : String) : UserRow :=
  { id, username := id, disabled := .text "broken", createdAt := .integer 2000 }

/--
With one account a page, two malformed rows hide the account behind them.
-/
def hidingTable : List UserRow := [malformedRow "300", malformedRow "200", annaRow]

theorem not_showsDecodable : ¬ ShowsDecodable plainBackend [] hidingTable {} 1 := by
  rintro ⟨fuel, users, hbrowse, hperm⟩
  have hsorted : (hidingTable.mergeSort fun row row' => !UserListSort.before plainBackend .newest row' row)
      = hidingTable := List.mergeSort_of_pairwise (by decide)
  have hselects : hidingTable.filter (UserListFilter.selects plainBackend [] hidingTable {}) = hidingTable := by
    decide
  have hpage : listUsersPage plainBackend [] hidingTable {} 1 none
      = .ok { users := [], next := none, skipped := 2 } :=
    listUsersPage_of_sorted hidingTable rfl rfl (by decide) (by decide) (by decide)
  cases fuel with
  | zero => simp [browseUsers] at hbrowse
  | succ fuel =>
    rw [browseUsers, hpage] at hbrowse
    obtain rfl : users = [] := by simpa [bind, Except.bind, pure, Except.pure] using hbrowse.symm
    rw [UserListFilter.listing, hselects, hsorted] at hperm
    simp [hidingTable, malformedRow, annaRow, UserRow.decodes, SqlValue.isInteger] at hperm

/--
Two accounts a page leave room for a malformed row.
-/
theorem showsDecodable_malformedRow
    : ShowsDecodable plainBackend [] [malformedRow "200", annaRow] {} 2 := by
  have hanna : annaRow.Regular := decodes_annaRow.2
  refine (showsDecodable_iff lawful_plainBackend (by simp [DistinctIds, malformedRow, annaRow]) ?_ 2).2
    ⟨?_, ?_⟩
  . intro row hrow hdecodes
    rcases List.mem_cons.1 hrow with rfl | hrow
    . contradiction
    . exact List.mem_singleton.1 hrow ▸ hanna
  . intro row hrow hdecodes _ hlast
    have htable := (UserListFilter.mem_listing.1 hrow).1
    rcases List.mem_cons.1 htable with rfl | htable
    . contradiction
    . rw [List.mem_singleton.1 htable] at hlast
      exact absurd hlast (by decide)
  . apply Keyset.NoGap.of_length_le
    refine (List.length_filter_le _ _).trans ?_
    rw [UserListFilter.listing, List.length_mergeSort]
    exact List.length_filter_le _ _

end Lqxp
