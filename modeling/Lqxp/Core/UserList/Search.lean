import Mathlib.Data.List.GetD
import Lqxp.Core.LikePatterns
import Lqxp.Core.UserList.Completeness
import Lqxp.Data.EditDistance
import Lqxp.Data.Keyset

/-!
This module contains the search for accounts by name: a query for candidates in one order, which are then ranked in
another. The ranking goes by the least number of edits that turn one text into the other, computed in two buffers.
-/

namespace Lqxp

def levenshteinDistance (a b : String) : Nat :=
  let a := a.toList
  let b := b.toList
  if a = [] then b.length
  else if b = [] then a.length
  else (EditDistance.finalRow b a 0 (List.range (b.length + 1))).getD b.length 0

section Query

variable (b : Backend) (adminIds : List String)

def searchNeedle (query : String) : String := Text.takeChars 64 (b.toLowercase (Text.trim query))

def clampSearchLimit (limit : Nat) : Nat := min (max limit 1) 50

def searchSqlLimit (limit : Nat) : Nat := max (limit * 4) 100

def sqlPrefixMatch (needle : String) (row : UserRow) : Bool :=
  b.sqlLike (escapeLikePattern needle ++ "%") (b.sqlLower row.username)

def sqlMatches (needle : String) (row : UserRow) : Bool :=
  b.sqlLower row.username = needle || sqlPrefixMatch b needle row
    || b.sqlLike ("%" ++ escapeLikePattern needle ++ "%") (b.sqlLower row.username)

def sqlClass (needle : String) (row : UserRow) : Nat :=
  if b.sqlLower row.username = needle then 0 else if sqlPrefixMatch b needle row then 1 else 2

/--
The order of the query: by class, and the newest first.
-/
def sqlBefore (needle : String) (row row' : UserRow) : Bool :=
  sqlClass b needle row < sqlClass b needle row'
    || (sqlClass b needle row = sqlClass b needle row' && row'.createdAt.lt b row.createdAt)

def matchClass (needle username : String) : Nat :=
  if username = needle then 0 else if Text.startsWith username needle then 1 else 2

/--
A candidate with its class and its distance from the text searched for.
-/
structure SearchMatch where
  matchClass : Nat
  distance : Nat
  user : RankedUser

def searchMatch (needle : String) (user : RankedUser) : SearchMatch :=
  let username := b.toLowercase user.username
  { matchClass := Lqxp.matchClass needle username, distance := levenshteinDistance username needle, user }

def SearchMatch.le (m m' : SearchMatch) : Bool :=
  m.matchClass < m'.matchClass || (m.matchClass = m'.matchClass && (m.distance < m'.distance
    || (m.distance = m'.distance && m'.user.createdAt ≤ m.user.createdAt)))

/--
The accounts that match best, and the number of rows skipped.
-/
def searchUsers (table : List UserRow) (query : String) (limit : Nat) : List AuthenticatedUser × Nat :=
  let needle := searchNeedle b query
  if needle = "" then
    ([], 0)
  else
    let limit := clampSearchLimit limit
    let rows := ((table.filter (sqlMatches b needle)).mergeSort fun row row' => !sqlBefore b needle row' row).take
      (searchSqlLimit limit)
    let (stored, skipped) := decodeStoredRows b table rows
    let ranked := ((stored.map (searchMatch b needle)).mergeSort SearchMatch.le).take limit
    (ranked.map fun m => m.user.publicUser adminIds, skipped)

end Query

theorem levenshteinDistance_spec (a b : String) : EditDistance a.toList b.toList (levenshteinDistance a b) := by
  rw [levenshteinDistance]
  split
  next hempty =>
    rw [hempty]
    exact .nil_left b.toList
  split
  next hempty =>
    rw [hempty]
    exact .nil_right a.toList
  next => exact EditDistance.finalRow_spec a.toList b.toList

section Orders

variable {b : Backend} {needle : String} {row row' row'' : UserRow} {table : List UserRow}

theorem sqlBefore_iff
    : sqlBefore b needle row row' = true
        ↔ sqlClass b needle row < sqlClass b needle row'
          ∨ sqlClass b needle row = sqlClass b needle row' ∧ row'.createdAt.lt b row.createdAt = true := by
  rw [sqlBefore, Bool.or_eq_true, Bool.and_eq_true, decide_eq_true_eq, decide_eq_true_eq]

theorem sqlBefore_trans (hb : b.Lawful) (h : sqlBefore b needle row' row = false)
    (h' : sqlBefore b needle row'' row' = false) : sqlBefore b needle row'' row = false := by
  rw [Bool.eq_false_iff, Ne, sqlBefore_iff] at *
  rintro (hlt | ⟨heq, hnewer⟩)
  . by_cases hmid : sqlClass b needle row'' = sqlClass b needle row'
    . exact h (.inl (hmid ▸ hlt))
    . exact h (.inl (by omega))
  . have hclass : sqlClass b needle row' = sqlClass b needle row := by omega
    rcases SqlValue.lt_trichotomous hb row'.createdAt row.createdAt with hlt | hsame | hlt
    . refine h' (.inr ⟨by omega, SqlValue.lt_trans hb hlt hnewer⟩)
    . exact h' (.inr ⟨by omega, hsame ▸ hnewer⟩)
    . exact h (.inr ⟨hclass, hlt⟩)

theorem sqlBefore_asymm (hb : b.Lawful) (h : sqlBefore b needle row row' = true) : sqlBefore b needle row' row = false := by
  rw [Bool.eq_false_iff, Ne]
  rw [sqlBefore_iff] at *
  rintro (hlt | ⟨heq, hnewer⟩)
  . omega
  . rcases h with hlt | ⟨-, hnewer'⟩
    . omega
    . have hloop := SqlValue.lt_trans hb hnewer hnewer'
      rw [SqlValue.lt_irrefl hb] at hloop
      contradiction

theorem leading_query (hb : b.Lawful) (needle : String) (rows : List UserRow) (n : Nat)
    : Leading (fun row row' => sqlBefore b needle row' row = false) n rows
        ((rows.mergeSort fun row row' => !sqlBefore b needle row' row).take n) := by
  refine (Leading.of_mergeSort (fun row row' row'' h h' => ?_) (fun row row' => ?_) n rows).imp fun _ _ _ _ h => by
    simpa using h
  . rw [Bool.not_eq_true'] at *
    exact sqlBefore_trans hb h h'
  . cases hbefore : sqlBefore b needle row row' with
    | true => simp [sqlBefore_asymm hb hbefore]
    | false => simp

theorem SearchMatch.le_iff {m m' : SearchMatch}
    : m.le m' = true ↔ m.matchClass < m'.matchClass
        ∨ m.matchClass = m'.matchClass ∧ (m.distance < m'.distance
          ∨ m.distance = m'.distance ∧ m'.user.createdAt ≤ m.user.createdAt) := by
  simp only [SearchMatch.le, Bool.or_eq_true, Bool.and_eq_true, decide_eq_true_eq]

theorem leading_ranked (ranked : List SearchMatch) (n : Nat)
    : Leading (fun m m' => m.le m' = true) n ranked ((ranked.mergeSort SearchMatch.le).take n) := by
  refine .of_mergeSort (fun m m' m'' h h' => ?_) (fun m m' => ?_) n ranked
  . rw [SearchMatch.le_iff] at *
    omega
  . rw [Bool.or_eq_true, SearchMatch.le_iff, SearchMatch.le_iff]
    omega

end Orders

section Patterns

variable {b : Backend} {needle : String} {row : UserRow}

theorem sqlPrefixMatch_eq (hlike : ComparesAsSql b.sqlLike) (hneedle : Comparable needle)
    (hrow : Comparable (b.sqlLower row.username))
    : sqlPrefixMatch b needle row = Text.startsWith (b.sqlLower row.username) needle :=
  sqlLike_beginning hlike hneedle hrow

theorem sqlClass_eq (hlike : ComparesAsSql b.sqlLike) (hneedle : Comparable needle)
    (hrow : Comparable (b.sqlLower row.username)) : sqlClass b needle row = matchClass needle (b.sqlLower row.username) := by
  rw [sqlClass, matchClass, sqlPrefixMatch_eq hlike hneedle hrow]

theorem sqlMatches_eq (hlike : ComparesAsSql b.sqlLike) (hneedle : Comparable needle)
    (hrow : Comparable (b.sqlLower row.username))
    : sqlMatches b needle row = Text.contains (b.sqlLower row.username) needle := by
  rw [sqlMatches, sqlPrefixMatch_eq hlike hneedle hrow, sqlLike_containing hlike hneedle hrow]
  cases hcontains : Text.contains (b.sqlLower row.username) needle with
  | true => exact Bool.or_true _
  | false =>
    have hnot : ¬ needle.toList <:+: (b.sqlLower row.username).toList := by
      rw [← Text.contains_iff_isInfix, hcontains]
      exact Bool.false_ne_true
    rw [Bool.or_false, Bool.or_eq_false_iff]
    constructor
    . refine decide_eq_false fun heq => hnot ?_
      rw [heq]
    . rw [Bool.eq_false_iff]
      intro hstarts
      exact hnot (List.isPrefixOf_iff_prefix.1 hstarts).isInfix

end Patterns

section Ranking

variable {b : Backend} {adminIds : List String} {table : List UserRow}

/--
The order of the shortlist: by class, and the newest first.
-/
def NewestInClass (b : Backend) (needle : String) (row row' : UserRow) : Prop :=
  matchClass needle (b.sqlLower row.username) < matchClass needle (b.sqlLower row'.username)
    ∨ matchClass needle (b.sqlLower row.username) = matchClass needle (b.sqlLower row'.username)
      ∧ row.createdAt.lt b row'.createdAt = false

instance (b : Backend) (needle : String) (row row' : UserRow) : Decidable (NewestInClass b needle row row') :=
  inferInstanceAs (Decidable (_ ∨ _ ∧ _))

/--
The order of the answer: by class, then by the least number of edits between name and text, and the newest first.
-/
def Closer (b : Backend) (needle : String) (user user' : RankedUser) : Prop :=
  ∃ d d', EditDistance (b.toLowercase user.username).toList needle.toList d
    ∧ EditDistance (b.toLowercase user'.username).toList needle.toList d'
    ∧ (matchClass needle (b.toLowercase user.username) < matchClass needle (b.toLowercase user'.username)
      ∨ matchClass needle (b.toLowercase user.username) = matchClass needle (b.toLowercase user'.username)
        ∧ (d < d' ∨ d = d' ∧ user'.createdAt ≤ user.createdAt))

/--
An answer consists of the first accounts, of all those with the text in their names.
-/
def BestMatches (b : Backend) (adminIds : List String) (table : List UserRow) (needle : String) (limit : Nat)
    (users : List AuthenticatedUser) : Prop :=
  ∃ best, Leading (Closer b needle) limit
      ((table.filterMap (·.decode b table)).filter fun user => Text.contains (b.toLowercase user.username) needle) best
    ∧ users = best.map (·.publicUser adminIds)

theorem closer_of_le {needle : String} {user user' : RankedUser}
    (h : (searchMatch b needle user).le (searchMatch b needle user') = true) : Closer b needle user user' :=
  ⟨_, _, levenshteinDistance_spec _ _, levenshteinDistance_spec _ _, SearchMatch.le_iff.1 h⟩

theorem length_filterMap_decode {rows : List UserRow} (h : ∀ row ∈ rows, row.decodes)
    : (rows.filterMap (·.decode b table)).length = rows.length := by
  refine List.filterMap_length_eq_length.2 fun row hrow => ?_
  rw [← h row hrow, ← @UserRow.isSome_publicUser b [] table row, UserRow.publicUser, Option.isSome_map]

theorem exists_shortlist (hb : b.Lawful) (hlike : ComparesAsSql b.sqlLike) (hlower : Lowers b.toLowercase)
    (hsql : ∀ s, NulFree s → Comparable (b.sqlLower s)) (hdecodes : ∀ row ∈ table, row.decodes)
    (hnames : ∀ row ∈ table, NulFree row.username) {query : String} (limit : Nat)
    (hne : searchNeedle b query ≠ "") (hnul : NulFree (searchNeedle b query))
    : ∃ shortlist best,
        Leading (NewestInClass b (searchNeedle b query)) (searchSqlLimit (clampSearchLimit limit))
            (table.filter fun row => Text.contains (b.sqlLower row.username) (searchNeedle b query)) shortlist
          ∧ Leading (Closer b (searchNeedle b query)) (clampSearchLimit limit)
            (shortlist.filterMap (·.decode b table)) best
          ∧ searchUsers b adminIds table query limit = (best.map (·.publicUser adminIds), 0) := by
  have hneedle : NoCapitals (searchNeedle b query) := by
    intro c hc
    rw [searchNeedle, Text.takeChars, String.toList_ofList] at hc
    exact hlower.noCapitals _ c (List.mem_of_mem_take hc)
  have hneedle := hneedle.comparable hnul
  rw [searchUsers, if_neg hne]
  generalize searchNeedle b query = needle at hneedle ⊢
  dsimp only [decodeStoredRows]
  have hmatches : table.filter (sqlMatches b needle)
      = table.filter fun row => Text.contains (b.sqlLower row.username) needle :=
    List.filter_congr fun row hrow => sqlMatches_eq hlike hneedle (hsql _ (hnames row hrow))
  rw [hmatches]
  have hquery := leading_query hb needle (table.filter fun row => Text.contains (b.sqlLower row.username) needle)
    (searchSqlLimit (clampSearchLimit limit))
  generalize ((table.filter fun row => Text.contains (b.sqlLower row.username) needle).mergeSort _).take _
    = shortlist at hquery ⊢
  have hranked := (leading_ranked ((shortlist.filterMap (·.decode b table)).map (searchMatch b needle))
    (clampSearchLimit limit)).of_map (g := SearchMatch.user) fun _ => rfl
  have hclass {row : UserRow} (hrow : row ∈ table.filter fun row => Text.contains (b.sqlLower row.username) needle)
      : sqlClass b needle row = matchClass needle (b.sqlLower row.username) :=
    sqlClass_eq hlike hneedle (hsql _ (hnames row (List.mem_of_mem_filter hrow)))
  refine ⟨shortlist, _, hquery.imp fun row hrow row' hrow' h => ?_, hranked.imp fun _ _ _ _ h => closer_of_le h, ?_⟩
  . rw [Bool.eq_false_iff, Ne, sqlBefore_iff, hclass hrow, hclass hrow', not_or,
      not_and, Bool.not_eq_true] at h
    rcases Nat.lt_or_eq_of_le (Nat.le_of_not_lt h.1) with hlt | heq
    . exact .inl hlt
    . exact .inr ⟨heq, h.2 heq.symm⟩
  . have hcount : (shortlist.filterMap (·.decode b table)).length = shortlist.length :=
      length_filterMap_decode fun row hrow => hdecodes row (List.mem_of_mem_filter (hquery.subset hrow))
    rw [List.map_map, hcount, Nat.sub_self]
    rfl

theorem filterMap_decode_filter {needle : String}
    (hagree : ∀ row ∈ table, b.sqlLower row.username = b.toLowercase row.username)
    : (table.filter fun row => Text.contains (b.sqlLower row.username) needle).filterMap (·.decode b table)
        = (table.filterMap (·.decode b table)).filter fun user => Text.contains (b.toLowercase user.username) needle := by
  rw [List.filterMap_filter, List.filter_filterMap]
  refine List.filterMap_congr fun row hrow => ?_
  rw [hagree row hrow]
  cases hdecode : row.decode b table with
  | none => exact ite_self _
  | some user => rw [Option.filter_some, (UserRow.columns_of_decode hdecode).2.1]

theorem searchUsers_shortlists (hb : b.Lawful) (hlike : ComparesAsSql b.sqlLike) (hlower : Lowers b.toLowercase)
    (hsql : ∀ s, NulFree s → Comparable (b.sqlLower s)) (hdecodes : ∀ row ∈ table, row.decodes)
    (hnames : ∀ row ∈ table, NulFree row.username) (query : String) (hnul : NulFree (searchNeedle b query))
    (limit : Nat)
    : (searchNeedle b query = "" → searchUsers b adminIds table query limit = ([], 0))
      ∧ (searchNeedle b query ≠ "" →
        (∃ shortlist best,
          Leading (NewestInClass b (searchNeedle b query)) (searchSqlLimit (clampSearchLimit limit))
              (table.filter fun row => Text.contains (b.sqlLower row.username) (searchNeedle b query)) shortlist
            ∧ Leading (Closer b (searchNeedle b query)) (clampSearchLimit limit)
              (shortlist.filterMap (·.decode b table)) best
            ∧ searchUsers b adminIds table query limit = (best.map (·.publicUser adminIds), 0))
        ∧ ((∀ row ∈ table, b.sqlLower row.username = b.toLowercase row.username) →
            table.countP (fun row => Text.contains (b.sqlLower row.username) (searchNeedle b query))
              ≤ searchSqlLimit (clampSearchLimit limit) →
            BestMatches b adminIds table (searchNeedle b query) (clampSearchLimit limit)
              (searchUsers b adminIds table query limit).1)) := by
  constructor
  . intro hempty
    rw [searchUsers, if_pos hempty]
  . intro hne
    refine ⟨exists_shortlist hb hlike hlower hsql hdecodes hnames limit hne hnul, fun hagree hfew => ?_⟩
    obtain ⟨shortlist, best, hshortlist, hbest, hanswer⟩ :=
      @exists_shortlist b adminIds table hb hlike hlower hsql hdecodes hnames query limit hne hnul
    rw [List.countP_eq_length_filter] at hfew
    have hperm := (hshortlist.perm_of_length_le hfew).filterMap (·.decode b table)
    rw [filterMap_decode_filter hagree] at hperm
    exact ⟨best, hbest.of_perm hperm, congrArg Prod.fst hanswer⟩

end Ranking

section ManyMatches

theorem lawful_sqlBackend : sqlBackend.Lawful where
  irrefl := lawful_plainBackend.irrefl
  trans := lawful_plainBackend.trans
  trichotomous := lawful_plainBackend.trichotomous
  empty := lawful_plainBackend.empty
  lower_empty := rfl

def annab : UserRow := { id := "0", username := "annab", createdAt := .integer 0 }

def annabel (i : Nat) : UserRow :=
  { id := toString (i + 1), username := String.ofList ("annabel".toList ++ Nat.toDigits 10 i),
    createdAt := .integer (i + 1) }

/--
A hundred names that begin with the same text, all newer and longer than another one.
-/
def manyAnnas : List UserRow := annab :: (List.range 100).map annabel

theorem mem_manyAnnas {row : UserRow} : row ∈ manyAnnas ↔ row = annab ∨ ∃ i < 100, annabel i = row := by
  simp only [manyAnnas, List.mem_cons, List.mem_map, List.mem_range]

theorem toList_annabel (i : Nat)
    : (Text.toAsciiLower (annabel i).username).toList
        = 'a' :: 'n' :: 'n' :: 'a' :: 'b' :: 'e' :: 'l' :: (Nat.toDigits 10 i).map Text.toAsciiLowerChar := by
  rw [Text.toAsciiLower, String.toList_ofList, annabel, String.toList_ofList, List.map_append]
  rfl

theorem id_annabel (i : Nat) : (annabel i).id ≠ "0" := fun h => Nat.succ_ne_zero i (Text.toString_inj h)

theorem matchClass_annabel (i : Nat) : matchClass "anna" (Text.toAsciiLower (annabel i).username) = 1 := by
  have hlong : Text.toAsciiLower (annabel i).username ≠ "anna" := by
    intro h
    have hlist := congrArg String.toList h
    rw [toList_annabel] at hlist
    exact nomatch hlist
  rw [matchClass, if_neg hlong, if_pos]
  rw [Text.startsWith, toList_annabel]
  rfl

theorem contains_manyAnnas
    : ∀ row ∈ manyAnnas, Text.contains (Text.toAsciiLower row.username) "anna" = true := by
  intro row hrow
  rcases mem_manyAnnas.1 hrow with rfl | ⟨i, -, rfl⟩
  . decide +kernel
  . rw [Text.contains_iff_isInfix, toList_annabel]
    exact ⟨[], _, rfl⟩

theorem decodes_manyAnnas : ∀ row ∈ manyAnnas, row.decodes := by
  intro row hrow
  rcases mem_manyAnnas.1 hrow with rfl | ⟨i, -, rfl⟩ <;> rfl

theorem nulFree_annab : NulFree annab.username := by
  have hall : ∀ c ∈ ['a', 'n', 'n', 'a', 'b'], c ≠ '\x00' := by simp
  exact hall

theorem nulFree_manyAnnas : ∀ row ∈ manyAnnas, NulFree row.username := by
  intro row hrow c hc
  rcases mem_manyAnnas.1 hrow with rfl | ⟨i, -, rfl⟩
  . exact nulFree_annab c hc
  . rw [annabel, String.toList_ofList] at hc
    rcases List.mem_append.1 hc with hc | hc
    . have hall : ∀ c ∈ ['a', 'n', 'n', 'a', 'b', 'e', 'l'], c ≠ '\x00' := by simp
      exact hall c hc
    . rintro rfl
      exact absurd (Nat.isDigit_of_mem_toDigits (by decide) (by decide) hc) (by decide)

theorem nulFree_anna : NulFree (searchNeedle sqlBackend "anna") := by
  have hneedle : searchNeedle sqlBackend "anna" = "anna" := by decide +kernel
  have hall : ∀ c ∈ ['a', 'n', 'n', 'a'], c ≠ '\x00' := by simp
  rw [hneedle]
  exact hall

theorem eq_annab {row : UserRow} (hrow : row ∈ manyAnnas) (hid : row.id = "0") : row = annab := by
  rcases mem_manyAnnas.1 hrow with rfl | ⟨i, -, rfl⟩
  . rfl
  . exact absurd hid (id_annabel i)

theorem count_manyAnnas
    : 100 ≤ (manyAnnas.filter fun row => Text.contains (Text.toAsciiLower row.username) "anna").countP
        fun row => row.id ≠ "0" := by
  have hcount : ((List.range 100).map annabel).countP (fun row => row.id ≠ "0") = ((List.range 100).map annabel).length := by
    refine List.countP_eq_length.2 fun row hrow => ?_
    obtain ⟨i, -, rfl⟩ := List.mem_map.1 hrow
    exact decide_eq_true (id_annabel i)
  rw [List.filter_eq_self.2 contains_manyAnnas, manyAnnas, List.countP_cons, hcount, List.length_map, List.length_range]
  exact Nat.le_add_right _ _

theorem newer_manyAnnas {row : UserRow} (hrow : row ∈ manyAnnas) (hid : row.id ≠ "0")
    : ¬ NewestInClass sqlBackend "anna" annab row := by
  rcases mem_manyAnnas.1 hrow with rfl | ⟨i, -, rfl⟩
  . exact absurd rfl hid
  have hclass : matchClass "anna" (sqlBackend.sqlLower (annabel i).username) = 1 := matchClass_annabel i
  have hclass' : matchClass "anna" (sqlBackend.sqlLower annab.username) = 1 := by decide +kernel
  rw [NewestInClass, hclass, hclass']
  rintro (hlt | ⟨-, hold⟩)
  . exact Nat.lt_irrefl 1 hlt
  . have hold : decide ((0 : Int) < (i : Int) + 1) = false := hold
    exact of_decide_eq_false hold (by omega)

theorem id_ne_of_searchUsers : ∀ user ∈ (searchUsers sqlBackend [] manyAnnas "anna" 1).1, user.id ≠ "0" := by
  obtain ⟨shortlist, best, hshortlist, hbest, hanswer⟩ := @exists_shortlist sqlBackend [] manyAnnas lawful_sqlBackend
    (fun _ _ _ _ => rfl) lowers_toAsciiLower (fun _ => comparable_toAsciiLower) decodes_manyAnnas
    nulFree_manyAnnas "anna" 1 (by decide +kernel) nulFree_anna
  have hneedle : searchNeedle sqlBackend "anna" = "anna" := by decide +kernel
  have hlimit : searchSqlLimit (clampSearchLimit 1) = 100 := by decide
  rw [hneedle, hlimit] at hshortlist
  have hnot : annab ∉ shortlist := by
    refine hshortlist.not_mem_of_countP count_manyAnnas (fun row hrow hne => ?_) (by decide)
    exact newer_manyAnnas (List.mem_of_mem_filter hrow) (of_decide_eq_true hne)
  rw [hanswer]
  intro user huser hid
  obtain ⟨ranked, hranked, rfl⟩ := List.mem_map.1 huser
  obtain ⟨row, hrow, hdecode⟩ := List.mem_filterMap.1 (hbest.subset hranked)
  have hrowid : row.id = "0" := (UserRow.columns_of_decode hdecode).1.symm.trans hid
  rw [eq_annab (List.mem_of_mem_filter (hshortlist.subset hrow)) hrowid] at hrow
  exact hnot hrow

/--
The closest account is not found, because a hundred newer ones fill the shortlist.
-/
theorem not_bestMatches_manyAnnas
    : ¬ BestMatches sqlBackend [] manyAnnas "anna" 1 (searchUsers sqlBackend [] manyAnnas "anna" 1).1 := by
  rintro ⟨best, ⟨sorted, hsorted, hpairwise, rfl⟩, hanswer⟩
  obtain ⟨closest, hdecode⟩ := @UserRow.exists_decode sqlBackend annab manyAnnas rfl
  obtain ⟨hid, hname, -⟩ := UserRow.columns_of_decode hdecode
  have hclosest : closest ∈ sorted := by
    refine hsorted.mem_iff.2 (List.mem_filter.2 ⟨List.mem_filterMap.2 ⟨annab, List.mem_cons_self, hdecode⟩, ?_⟩)
    rw [hname]
    decide +kernel
  cases sorted with
  | nil => exact List.not_mem_nil hclosest
  | cons first rest =>
    have hfirst : first.id ≠ "0" := by
      refine id_ne_of_searchUsers (first.publicUser []) ?_
      rw [hanswer]
      exact List.mem_cons_self
    rcases List.mem_cons.1 hclosest with rfl | hrest
    . exact hfirst hid
    -- the first one is longer than the closest, so that it takes more edits
    obtain ⟨d, d', hd, hd', horder⟩ := (List.pairwise_cons.1 hpairwise).1 closest hrest
    obtain ⟨row, hrow, hdecode'⟩ := List.mem_filterMap.1
      (List.mem_of_mem_filter (hsorted.mem_iff.1 List.mem_cons_self))
    obtain ⟨hid', hname', -⟩ := UserRow.columns_of_decode hdecode'
    rcases mem_manyAnnas.1 hrow with rfl | ⟨i, -, rfl⟩
    . exact hfirst hid'
    rw [hname'] at hd horder
    rw [hname] at hd' horder
    have hfar := hd.1.length_le.2
    have hlong : 7 ≤ (sqlBackend.toLowercase (annabel i).username).toList.length := by
      have hlist : (sqlBackend.toLowercase (annabel i).username).toList = _ := toList_annabel i
      rw [hlist]
      exact Nat.le_add_left 7 _
    have hshort : "anna".toList.length = 4 := rfl
    have hnear : d' ≤ 1 := hd'.2 (.keep 'a' (.keep 'n' (.keep 'n' (.keep 'a' (.delete 'b' .nil)))))
    have hclass : matchClass "anna" (sqlBackend.toLowercase annab.username) = 1 := by decide +kernel
    have hclass' : matchClass "anna" (sqlBackend.toLowercase (annabel i).username) = 1 := matchClass_annabel i
    omega

def exactRow : UserRow := { id := "7", username := "Anna", createdAt := .integer 7 }

def bobRow : UserRow := { id := "8", username := "bob", createdAt := .integer 8 }

/--
Of the two accounts with the text in their names the closest is found.
-/
theorem searchUsers_shortlists_annab
    : (searchUsers sqlBackend [] [exactRow, annab, bobRow] "anna" 1).1.map (·.id) = ["7"]
        ∧ BestMatches sqlBackend [] [exactRow, annab, bobRow] (searchNeedle sqlBackend "anna") 1
          (searchUsers sqlBackend [] [exactRow, annab, bobRow] "anna" 1).1 := by
  have hnames : ∀ row ∈ [exactRow, annab, bobRow], NulFree row.username := by
    have hanna : ∀ c ∈ ['A', 'n', 'n', 'a'], c ≠ '\x00' := by simp
    have hbob : ∀ c ∈ ['b', 'o', 'b'], c ≠ '\x00' := by simp
    rintro row hrow
    simp only [List.mem_cons, List.not_mem_nil, or_false] at hrow
    rcases hrow with rfl | rfl | rfl
    . exact hanna
    . exact nulFree_annab
    . exact hbob
  have hmatches : [exactRow, annab, bobRow].filter (sqlMatches sqlBackend "anna") = [exactRow, annab] := by
    decide +kernel
  constructor
  . have hneedle : searchNeedle sqlBackend "anna" = "anna" := by decide +kernel
    have htake : [exactRow, annab].take (searchSqlLimit (clampSearchLimit 1)) = [exactRow, annab] := rfl
    rw [searchUsers, hneedle, if_neg (by decide), hmatches, List.mergeSort_of_pairwise (by decide +kernel)]
    dsimp only [decodeStoredRows]
    rw [htake, List.mergeSort_of_pairwise (by decide +kernel)]
    decide +kernel
  . exact ((searchUsers_shortlists lawful_sqlBackend (fun _ _ _ _ => rfl) lowers_toAsciiLower
      (fun _ => comparable_toAsciiLower) (by decide) hnames "anna" nulFree_anna 1).2 (by decide +kernel)).2
      (by decide +kernel) (by decide +kernel)

end ManyMatches

end Lqxp

namespace Lqxp

section Buffers

/--
Write the entries of a row behind the first, from the row above it.
-/
def fillRow (ca : Char) (b : List Char) (prev curr : List Nat) : List Nat :=
  b.zipIdx.foldl (fun curr (cb, j) =>
    let cost := if ca = cb then 0 else 1
    curr.set (j + 1) (min (min (prev.getD (j + 1) 0 + 1) (curr.getD j 0 + 1)) (prev.getD j 0 + cost))) curr

/--
The buffers are swapped after each row, so a row is written over the one before the last.
-/
def swapRows (b : List Char) (rows : List Nat × List Nat) (entry : Char × Nat) : List Nat × List Nat :=
  let (prev, curr) := rows
  let (ca, i) := entry
  (fillRow ca b prev (curr.set 0 (i + 1)), prev)

def levenshteinRows (a b : String) : Nat :=
  let a := a.toList
  let b := b.toList
  if a = [] then b.length
  else if b = [] then a.length
  else
    let (prev, _) :=
      a.zipIdx.foldl (swapRows b) (List.range (b.length + 1), List.replicate (b.length + 1) 0)
    prev.getD b.length 0

theorem length_nextRow (ca : Char) {b : List Char} {row : List Nat} (h : row.length = b.length + 1) (left : Nat)
    : (EditDistance.nextRow ca b row left).length = b.length := by
  induction b generalizing row left with
  | nil =>
    cases row with
    | nil => rfl
    | cons diagonal row => rfl
  | cons cb b ih =>
    match row, h with
    | diagonal :: above :: row, h =>
      rw [EditDistance.nextRow, List.length_cons, ih (Nat.succ.inj h), List.length_cons]

theorem foldl_fillRow (ca : Char) {b : List Char} {above old done : List Nat} {left : Nat}
    (habove : above.length = b.length + 1) (hold : old.length = b.length) {front : List Nat}
    (hfront : front.length = done.length)
    : (b.zipIdx done.length).foldl (fun curr (cb, j) =>
        let cost := if ca = cb then 0 else 1
        curr.set (j + 1) (min (min ((front ++ above).getD (j + 1) 0 + 1) (curr.getD j 0 + 1))
          ((front ++ above).getD j 0 + cost))) (done ++ left :: old)
        = done ++ left :: EditDistance.nextRow ca b above left := by
  induction b generalizing above old done left front with
  | nil =>
    obtain rfl := List.length_eq_zero_iff.1 hold
    cases above with
    | nil => rfl
    | cons diagonal above => rfl
  | cons cb b ih =>
    match above, old, habove, hold with
    | diagonal :: next :: above, _ :: old, habove, hold =>
      let entry := min (min (next + 1) (left + 1)) (diagonal + if ca = cb then 0 else 1)
      have hfront' : (front ++ [diagonal]).length = (done ++ [left]).length := by simp [hfront]
      have hnext := @ih (next :: above) _ (done ++ [left]) entry (Nat.succ.inj habove) (Nat.succ.inj hold) _ hfront'
      simp only [List.append_assoc, List.singleton_append, List.length_append, List.length_singleton] at hnext
      rw [List.zipIdx_cons, List.foldl_cons, EditDistance.nextRow, ← hnext]
      congr 1
      have hdiagonal : (front ++ diagonal :: next :: above).getD done.length 0 = diagonal := by
        rw [← hfront, List.getD_append_right _ _ _ _ (Nat.le_refl _), Nat.sub_self, List.getD_cons_zero]
      have habove : (front ++ diagonal :: next :: above).getD (done.length + 1) 0 = next := by
        rw [← hfront, List.getD_append_right _ _ _ _ (Nat.le_add_right _ 1), Nat.add_sub_cancel_left, List.getD_cons_succ,
          List.getD_cons_zero]
      have hleft (stale : Nat) : (done ++ left :: stale :: old).getD done.length 0 = left := by
        rw [List.getD_append_right _ _ _ _ (Nat.le_refl _), Nat.sub_self, List.getD_cons_zero]
      dsimp only
      rw [hdiagonal, habove, hleft, List.set_append_right _ _ (Nat.le_add_right _ 1), Nat.add_sub_cancel_left]
      rfl

theorem fillRow_eq (ca : Char) {b : List Char} {prev curr : List Nat} (hprev : prev.length = b.length + 1)
    (hcurr : curr.length = b.length + 1) (left : Nat)
    : fillRow ca b prev (curr.set 0 left) = left :: EditDistance.nextRow ca b prev left := by
  obtain ⟨stale, old, rfl⟩ := List.exists_cons_of_length_eq_add_one hcurr
  exact @foldl_fillRow ca b prev old [] left hprev (Nat.succ.inj hcurr) [] rfl

theorem foldl_swapRows {a b : List Char} {i : Nat} {prev curr : List Nat} (hprev : prev.length = b.length + 1)
    (hcurr : curr.length = b.length + 1)
    : ((a.zipIdx i).foldl (swapRows b) (prev, curr)).1 = EditDistance.finalRow b a i prev := by
  induction a generalizing i prev curr with
  | nil => rfl
  | cons ca a ih =>
    rw [List.zipIdx_cons, List.foldl_cons, swapRows]
    rw [fillRow_eq ca hprev hcurr, ih _ hprev, EditDistance.finalRow]
    rw [List.length_cons, length_nextRow ca hprev]

theorem levenshteinRows_eq (a b : String) : levenshteinRows a b = levenshteinDistance a b := by
  rw [levenshteinRows, levenshteinDistance]
  split
  . rfl
  split
  . rfl
  . rw [← foldl_swapRows (b := b.toList) List.length_range
      (List.length_replicate (n := b.toList.length + 1) (a := 0))]

/--
The distance is the least number of insertions, deletions and substitutions of single characters that turn one text
into the other.
-/
theorem levenshteinRows_isLeast (a b : String)
    : IsLeast {n | EditSteps n a.toList b.toList} (levenshteinRows a b)
        ∧ levenshteinRows a b = levenshteinDistance a b := by
  have hrows := levenshteinRows_eq a b
  rw [hrows]
  exact ⟨(levenshteinDistance_spec a b).isLeast_editSteps, rfl⟩

end Buffers

end Lqxp
