import Lqxp.Core.Database
import Lqxp.Core.Usernames
import Lqxp.Data.Fields

/-!
This module contains the paginated browse of all accounts: its filters, its cursors, and the query for one
page on a table in which some rows may be malformed.
-/

namespace Lqxp

/--
What the browse takes from the database engine and the JSON library, besides the text functions.
-/
structure Backend extends Externals where
  /-- Whether a text comes before another one in the collation of the engine. -/
  textLt : String → String → Bool
  /-- The profile and the badges that a column holds; what does not parse counts as none. -/
  profileFromJson : String → UserProfile
  badgesFromJson : String → List String

/--
What a row can hold in a column of integers: the engine does not enforce the schema.
-/
inductive SqlValue where
  | integer (n : Int)
  | text (s : String)
  deriving DecidableEq

namespace SqlValue

def isInteger : SqlValue → Bool
  | .integer _ => true
  | .text _ => false

def lt (b : Backend) : SqlValue → SqlValue → Bool
  | .integer m, .integer n => m < n
  | .integer _, .text _ => true
  | .text _, .integer _ => false
  | .text s, .text t => b.textLt s t

end SqlValue

/--
A row of the table of users, without the columns that no page shows.
-/
structure UserRow where
  id : String
  username : String
  profileJson : String := "\x7b\x7d"
  status : String := "online"
  disabled : SqlValue := .integer 0
  banned : SqlValue := .integer 0
  createdAt : SqlValue
  customBadgesJson : String := "[]"
  deriving DecidableEq

inductive UserListSort where
  | newest
  | oldest
  | username
  deriving DecidableEq

inductive UserListStatus where
  | all
  | active
  | disabled
  | banned
  | admin
  deriving DecidableEq

structure UserListFilter where
  query : String := ""
  status : UserListStatus := .all
  badge : String := ""
  createdAfter : Option Int := none
  createdBefore : Option Int := none
  sort : UserListSort := .newest
  deriving DecidableEq

section Params

variable (x : Externals)

def UserListStatus.parse (status : String) : ApiResult UserListStatus :=
  match x.toLowercase (Text.trim status) with
  | "all" => .ok .all
  | "active" => .ok .active
  | "disabled" => .ok .disabled
  | "banned" => .ok .banned
  | "admin" => .ok .admin
  | _ => .error (.badRequest "Invalid status.")

def UserListSort.parse (sort : String) : ApiResult UserListSort :=
  match x.toLowercase (Text.trim sort) with
  | "newest" => .ok .newest
  | "oldest" => .ok .oldest
  | "username" => .ok .username
  | _ => .error (.badRequest "Invalid sort.")

def parseBound (raw : Option String) (name : String) : ApiResult (Option Int) :=
  match raw with
  | none => .ok none
  | some text =>
    match Text.parseI64 (Text.trim text) with
    | none => .error (.badRequest name)
    | some value => if value < 0 then .error (.badRequest name) else .ok (some value)

/--
The filter that the parameters of a request ask for.
-/
def UserListFilter.fromParams (q status badge lower upper sort : Option String) : ApiResult UserListFilter := do
  let query := Text.takeChars 64 (Text.trim (q.getD ""))
  let status ← UserListStatus.parse x (status.getD "all")
  let badge := Text.takeChars 64 (x.toLowercase (Text.trim (badge.getD "")))
  let createdAfter ← parseBound lower "Invalid from."
  let createdBefore ← parseBound upper "Invalid to."
  match createdAfter, createdBefore with
  | some after, some before =>
    if before < after then
      throw (.badRequest "Invalid range.")
  | _, _ => pure ()
  let sort ← UserListSort.parse x (sort.getD "newest")
  return { query, status, badge, createdAfter, createdBefore, sort }

end Params

section Cursors

inductive UserListCursor where
  | time (created : Int) (id : String)
  | name (username id : String)
  deriving DecidableEq

def i64Max : Int := 2 ^ 63 - 1

def i64Min : Int := -2 ^ 63

def cursorHighId : String := String.singleton (Char.ofNat 0x10FFFF)

def invalidCursor : ApiError := .badRequest "Invalid cursor."

def checkCursorId (id : String) : ApiResult String :=
  if id = "" || 64 < Text.len id then .error invalidCursor else .ok id

def decodeTimeCursor (rest : String) : ApiResult (Option UserListCursor) := do
  let some (createdRaw, idRaw) := Text.splitOnce ':' rest
    | throw invalidCursor
  let some created := Text.parseI64 createdRaw
    | throw invalidCursor
  return some (.time created (← checkCursorId idRaw))

/--
Names can hold anything, so that a name is split off at the last colon.
-/
def decodeNameCursor (rest : String) : ApiResult (Option UserListCursor) := do
  let some (nameRaw, idRaw) := Text.rsplitOnce ':' rest
    | throw invalidCursor
  if nameRaw = "" || 128 < nameRaw.toList.length then
    throw invalidCursor
  return some (.name nameRaw (← checkCursorId idRaw))

/--
A cursor without a tag is a time cursor of an older version.
-/
def decodeUserCursor (raw : String) : ApiResult (Option UserListCursor) :=
  let raw := Text.trim raw
  if raw = "" then
    .ok none
  else
    match Text.stripPrefix "t:" raw with
    | some rest => decodeTimeCursor rest
    | none =>
      match Text.stripPrefix "u:" raw with
      | some rest => decodeNameCursor rest
      | none => decodeTimeCursor raw

/--
What the rows of a page are compared with.
-/
structure Position where
  created : Int
  id : String
  name : String
  deriving DecidableEq

/--
The position of a cursor, or the one before all rows; a cursor of another sort order is refused.
-/
def UserListSort.position : UserListSort → Option UserListCursor → ApiResult Position
  | .newest, none => .ok { created := i64Max, id := cursorHighId, name := "" }
  | .newest, some (.time created id) => .ok { created, id, name := "" }
  | .oldest, none => .ok { created := i64Min, id := "", name := "" }
  | .oldest, some (.time created id) => .ok { created, id, name := "" }
  | .username, none => .ok { created := 0, id := "", name := "" }
  | .username, some (.name name id) => .ok { created := 0, id, name }
  | _, _ => .error invalidCursor

def UserListSort.cursorText (sort : UserListSort) (user : AuthenticatedUser) : String :=
  match sort with
  | .username => "u:" ++ user.username ++ ":" ++ user.id
  | .newest | .oldest => "t:" ++ toString user.createdAt ++ ":" ++ user.id

end Cursors

section Conditions

variable (b : Backend) (adminIds : List String)

def keyset (sort : UserListSort) (after : Position) (row : UserRow) : Bool :=
  match sort with
  | .newest =>
    row.createdAt.lt b (.integer after.created)
      || (row.createdAt = .integer after.created && b.textLt row.id after.id)
  | .oldest =>
    SqlValue.lt b (.integer after.created) row.createdAt
      || (row.createdAt = .integer after.created && b.textLt after.id row.id)
  | .username =>
    b.textLt (b.sqlLower after.name) (b.sqlLower row.username)
      || (b.sqlLower row.username = b.sqlLower after.name && b.textLt after.id row.id)

/--
Whether a row comes before another one on the pages.
-/
def UserListSort.before (sort : UserListSort) (row row' : UserRow) : Bool :=
  match sort with
  | .newest =>
    row'.createdAt.lt b row.createdAt || (row.createdAt = row'.createdAt && b.textLt row'.id row.id)
  | .oldest =>
    row.createdAt.lt b row'.createdAt || (row.createdAt = row'.createdAt && b.textLt row.id row'.id)
  | .username =>
    b.textLt (b.sqlLower row.username) (b.sqlLower row'.username)
      || (b.sqlLower row.username = b.sqlLower row'.username && b.textLt row.id row'.id)

/--
The number of a row in the whole table by the time of registration, starting with 1.
-/
def userRank (table : List UserRow) (row : UserRow) : Nat :=
  1 + table.countP fun other => UserListSort.before b .oldest other row

def likeContains (needle : String) : String := "%" ++ escapeLikePattern needle ++ "%"

namespace UserListFilter

def selectsQuery (filter : UserListFilter) (row : UserRow) : Bool :=
  let needleLike := likeContains (b.toLowercase filter.query)
  b.sqlLike needleLike (b.sqlLower row.username) || b.sqlLike needleLike (b.sqlLower row.id)

def selectsStatus (filter : UserListFilter) (row : UserRow) : Bool :=
  match filter.status with
  | .all => true
  | .active => row.disabled = .integer 0 && row.banned = .integer 0
  | .disabled => row.disabled ≠ .integer 0
  | .banned => row.banned ≠ .integer 0
  | .admin => adminIds.contains row.id

/--
The stored badges, and the two computed ones with their membership rule.
-/
def selectsBadge (table : List UserRow) (filter : UserListFilter) (row : UserRow) : Bool :=
  let badgeLike := likeContains filter.badge
  let rank := userRank b table row
  b.sqlLike badgeLike (b.sqlLower row.customBadgesJson)
    || (b.sqlLike badgeLike "admin" && adminIds.contains row.id)
    || (b.sqlLike badgeLike "early" && 1 ≤ rank && rank ≤ 200)

def selects (table : List UserRow) (filter : UserListFilter) (row : UserRow) : Bool :=
  (filter.query = "" || filter.selectsQuery b row) && filter.selectsStatus adminIds row
    && (filter.badge = "" || filter.selectsBadge b adminIds table row)
    && filter.createdAfter.all (fun after => !row.createdAt.lt b (.integer after))
    && filter.createdBefore.all fun before => !SqlValue.lt b (.integer before) row.createdAt

end UserListFilter

end Conditions

section Pages

variable (b : Backend) (adminIds : List String)

/--
A decoded row, with its rank.
-/
structure RankedUser extends StoredUser where
  userRank : Nat

def statusFromStr (s : String) : UserPresenceStatus :=
  match b.toLowercase (Text.trim s) with
  | "invisible" => .invisible
  | "dnd" => .dnd
  | _ => .online

/--
Decode a row; `none` when a column holds a value of another type than it should. A time before 1970 wraps
around.
-/
def UserRow.decode (table : List UserRow) (row : UserRow) : Option RankedUser :=
  match row.disabled, row.banned, row.createdAt with
  | .integer disabled, .integer banned, .integer createdAt =>
    some
      { id := row.id, username := row.username, profile := b.profileFromJson row.profileJson,
        status := statusFromStr b row.status, disabled := disabled ≠ 0, banned := banned ≠ 0,
        createdAt := (createdAt % 2 ^ 64).toNat, customBadges := b.badgesFromJson row.customBadgesJson,
        userRank := Lqxp.userRank b table row }
  | _, _, _ => none

/--
Decode the rows of a page. Malformed ones are skipped and counted.
-/
def decodeStoredRows (table rows : List UserRow) : List RankedUser × Nat :=
  let users := rows.filterMap (·.decode b table)
  (users, rows.length - users.length)

def RankedUser.badges (user : RankedUser) : List String :=
  let badges := if adminIds.contains user.id then ["admin"] else []
  let badges := if 0 < user.userRank && user.userRank ≤ 200 then badges ++ ["early"] else badges
  user.customBadges.foldl
    (fun badges badge => if badges.contains badge then badges else badges ++ [badge]) badges

def RankedUser.publicUser (user : RankedUser) : AuthenticatedUser :=
  { id := user.id, username := user.username, profile := user.profile, status := user.status,
    disabled := user.disabled, banned := user.banned, admin := adminIds.contains user.id,
    badges := user.badges adminIds, customBadges := user.customBadges, createdAt := user.createdAt }

def clampLimit (limit : Nat) : Nat := min (max limit 1) 100

/--
A page of accounts, the cursor of the next page if there is one, and the number of rows skipped.
-/
structure UserPage where
  users : List AuthenticatedUser
  next : Option String
  skipped : Nat

def listUsersPage (table : List UserRow) (filter : UserListFilter) (limit : Nat)
    (cursor : Option String) : ApiResult UserPage := do
  let limit := clampLimit limit
  let after ← filter.sort.position (← decodeUserCursor (cursor.getD ""))
  if filter.status = .admin && adminIds = [] then
    return { users := [], next := none, skipped := 0 }
  let matching := table.filter fun row =>
    keyset b filter.sort after row && filter.selects b adminIds table row
  let rows := (matching.mergeSort fun row row' => !filter.sort.before b row' row).take (limit + 1)
  let (users, skipped) := decodeStoredRows b table rows
  let shown := (users.take limit).map (·.publicUser adminIds)
  let next := if limit < rows.length then shown.getLast?.map filter.sort.cursorText else none
  return { users := shown, next, skipped }

/--
Fetch page after page, each from the table as it is then, until one comes without a next cursor; `none` when
the fuel does not suffice.
-/
def browseUsers (tables : Nat → List UserRow) (filter : UserListFilter) (limit : Nat)
    : Nat → Nat → Option String → ApiResult (Option (List AuthenticatedUser))
  | 0, _, _ => .ok none
  | fuel + 1, j, cursor => do
    let page ← listUsersPage b adminIds (tables j) filter limit cursor
    match page.next with
    | none => return some page.users
    | some next =>
      let rest ← browseUsers tables filter limit fuel (j + 1) (some next)
      return rest.map (page.users ++ ·)

end Pages

end Lqxp
