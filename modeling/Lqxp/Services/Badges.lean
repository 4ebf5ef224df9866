import Mathlib.Data.Bool.AllAny
import Lqxp.Core.LikePatterns
import Lqxp.Core.UserList.Browse
import Lqxp.Data.Unambiguous
import Lqxp.Services.Phantom.Canonical
import Lqxp.Services.Profiles

/-!
This module contains the form of the badges that an administrator can give, and when the search for a badge finds
exactly the accounts that show it: the search reads the text of the stored list, with its marks.
-/

namespace Lqxp

/--
The text that the list of badges of an account is stored as.
-/
def badgesJson (badges : List String) : String := (Json.arr (badges.map .str)).render

def listMarks : List Char := ['"', '[', ']', ',']

def isBadgeChar (c : Char) : Bool := (Text.isAsciiAlphanumeric c || c = '_' || c = '-') && !('A' ≤ c && c ≤ 'Z')

section Texts

theorem not_mem_of_isBadgeChar {c : Char} {marks : List Char} (hmarks : ∀ c ∈ marks, isBadgeChar c = false)
    (h : isBadgeChar c = true) : c ∉ marks := by
  intro hmem
  rw [hmarks c hmem] at h
  contradiction

theorem not_mem_listMarks {c : Char} (h : isBadgeChar c = true) : c ∉ listMarks :=
  not_mem_of_isBadgeChar (List.all_iff_forall_prop.1 (by decide)) h

theorem escapeCode_badgeChar {c : Char} (h : isBadgeChar c = true) : escapeCode c = [c] :=
  escapeCode_of_not_mem (not_mem_of_isBadgeChar (List.all_iff_forall_prop.1 (by decide +kernel)) h)

theorem small_badgeChar {c : Char} (h : isBadgeChar c = true)
    : c.toNat < 0x80 ∧ c ≠ '\x00' ∧ ¬ ('A' ≤ c ∧ c ≤ 'Z') := by
  have hnul : c ≠ '\x00' := by
    rintro rfl
    exact absurd h (by decide)
  rw [isBadgeChar, Bool.and_eq_true, Bool.not_eq_true', ← Bool.decide_and, decide_eq_false_iff_not] at h
  refine ⟨?_, hnul, h.2⟩
  simp only [Text.isAsciiAlphanumeric, Bool.or_eq_true, Bool.and_eq_true, decide_eq_true_eq] at h
  have hle {d : Char} (hd : d.toNat < 0x80) (hc : c ≤ d) : c.toNat < 0x80 := Nat.lt_of_le_of_lt hc hd
  rcases h.1 with (((⟨-, hc⟩ | ⟨-, hc⟩) | ⟨-, hc⟩) | rfl) | rfl
  . exact hle (by decide) hc
  . exact hle (by decide) hc
  . exact hle (by decide) hc
  . decide
  . decide

def PlainBadge (badge : String) : Prop := ∀ c ∈ badge.toList, isBadgeChar c = true

theorem toList_renderStr_plain {badge : String} (h : PlainBadge badge)
    : (Json.renderStr badge).toList = '"' :: (badge.toList ++ ['"']) := by
  have hcodes : badge.toList.flatMap escapeCode = badge.toList := by
    rw [List.flatMap_congr fun c hc => escapeCode_badgeChar (h c hc)]
    exact List.flatMap_singleton' _
  rw [toList_renderStr, hcodes]

theorem toList_renderElems {badges : List String} (h : ∀ badge ∈ badges, PlainBadge badge)
    : (Json.renderElems (badges.map .str)).toList
        = [','].intercalate ((badges.map String.toList).map fun badge => '"' :: (badge ++ ['"'])) := by
  induction badges with
  | nil => rfl
  | cons badge badges ih =>
    obtain ⟨hbadge, hbadges⟩ := List.forall_mem_cons.1 h
    cases badges with
    | nil =>
      rw [List.map_cons, List.map_nil, List.map_cons, List.map_nil, List.map_cons, List.map_nil,
        List.intercalate_singleton, ← toList_renderStr_plain hbadge]
      rfl
    | cons badge' badges =>
      have hrender : Json.renderElems ((badge :: badge' :: badges).map .str)
          = Json.renderStr badge ++ "," ++ Json.renderElems ((badge' :: badges).map .str) := rfl
      rw [hrender, String.toList_append, String.toList_append, ih hbadges, toList_renderStr_plain hbadge]
      exact List.intercalate_cons_cons.symm

theorem toList_badgesJson {badges : List String} (h : ∀ badge ∈ badges, PlainBadge badge)
    : (badgesJson badges).toList = Separators.enclosed '[' ']' ',' '"' (badges.map String.toList) := by
  have hrender : badgesJson badges = "[" ++ Json.renderElems (badges.map .str) ++ "]" := rfl
  rw [hrender, String.toList_append, String.toList_append, toList_renderElems h]
  rfl

theorem small_badgesJson {badges : List String} (h : ∀ badge ∈ badges, PlainBadge badge)
    : ∀ c ∈ (badgesJson badges).toList, c.toNat < 0x80 ∧ c ≠ '\x00' ∧ ¬ ('A' ≤ c ∧ c ≤ 'Z') := by
  rw [toList_badgesJson h]
  intro c hc
  rcases Separators.mem_enclosed hc with hmark | ⟨item, hitem, hc⟩
  . have hmarks : ∀ c ∈ ['[', ']', ',', '"'], c.toNat < 0x80 ∧ c ≠ '\x00' ∧ ¬ ('A' ≤ c ∧ c ≤ 'Z') :=
      List.all_iff_forall_prop.1 (by decide)
    exact hmarks c hmark
  . obtain ⟨badge, hbadge, rfl⟩ := List.mem_map.1 hitem
    exact small_badgeChar (h badge hbadge c hc)

end Texts

section Sanitized

variable {x : Externals}

theorem plainBadge_sanitizeBadge (hlower : Lowers x.toLowercase) (badge : String)
    : PlainBadge (sanitizeBadge x badge) := by
  intro c hc
  rw [sanitizeBadge, String.toList_ofList] at hc
  obtain ⟨hmem, hkept⟩ := List.mem_filter.1 (List.mem_of_mem_take hc)
  rw [isBadgeChar, hkept, Bool.true_and]
  rw [← Bool.decide_and, Bool.not_eq_true', decide_eq_false_iff_not]
  exact hlower.noCapitals _ c hmem

theorem plainBadge_sanitizeBadges (hlower : Lowers x.toLowercase) {badges cleaned : List String}
    (hcleaned : ∀ badge ∈ cleaned, PlainBadge badge)
    : ∀ badge ∈ sanitizeBadges x badges cleaned, PlainBadge badge := by
  induction badges generalizing cleaned with
  | nil => exact hcleaned
  | cons badge badges ih =>
    have hsnoc : ∀ badge' ∈ cleaned ++ [sanitizeBadge x badge], PlainBadge badge' := by
      rw [List.forall_mem_append, List.forall_mem_singleton]
      exact ⟨hcleaned, plainBadge_sanitizeBadge hlower badge⟩
    rw [sanitizeBadges]
    split
    . exact ih hcleaned
    split
    . exact hsnoc
    . exact ih hsnoc

end Sanitized

section Search

variable {b : Backend} {adminIds : List String} {table : List UserRow} {filter : UserListFilter}

/--
The column holds what `set_user_badges` writes for some badges, and reads back as it was written.
-/
def UserRow.HoldsBadges (b : Backend) (row : UserRow) (badges : List String) : Prop :=
  let sanitized := sanitizeCustomBadges b.toExternals badges
  row.customBadgesJson = badgesJson sanitized ∧ b.badgesFromJson row.customBadgesJson = sanitized

/--
The condition on badges selects exactly the accounts that show a badge with the text of the filter in it.
-/
def FindsBadges (b : Backend) (adminIds : List String) (table : List UserRow) (filter : UserListFilter) : Prop :=
  ∀ row ∈ table, ∀ user, row.decode b table = some user →
    (filter.selectsBadge b adminIds table row = true
      ↔ ∃ badge ∈ user.badges adminIds, Text.contains badge filter.badge = true)

theorem mem_foldl_append {badge : String} {badges : List String} (shown : List String)
    : badge ∈ badges.foldl (fun shown badge => if shown.contains badge then shown else shown ++ [badge]) shown
        ↔ badge ∈ shown ∨ badge ∈ badges := by
  induction badges generalizing shown with
  | nil => simp
  | cons next badges ih =>
    rw [List.foldl_cons, ih, List.mem_cons, ← or_assoc]
    refine or_congr_left ?_
    split
    next hmem =>
      rw [List.contains_iff_mem] at hmem
      exact ⟨.inl, fun h => h.elim id fun h => h ▸ hmem⟩
    next => rw [List.mem_append, List.mem_singleton]

theorem RankedUser.mem_badges {user : RankedUser} {badge : String}
    : badge ∈ user.badges adminIds
        ↔ (badge = "admin" ∧ adminIds.contains user.id = true)
          ∨ (badge = "early" ∧ 0 < user.userRank ∧ user.userRank ≤ 200) ∨ badge ∈ user.customBadges := by
  rw [RankedUser.badges, mem_foldl_append, ← or_assoc]
  refine or_congr_left ?_
  by_cases hearly : 0 < user.userRank ∧ user.userRank ≤ 200 <;> simp [hearly, and_comm]

theorem sqlLike_name (hlike : ComparesAsSql b.sqlLike) (hbadge : Comparable filter.badge) {name : String}
    (hname : Comparable name) : b.sqlLike (likeContains filter.badge) name = Text.contains name filter.badge :=
  sqlLike_containing hlike hbadge hname

theorem selectsBadge_iff (hlike : ComparesAsSql b.sqlLike) (hkeeps : KeepsSmall b.sqlLower)
    (hbadge : Comparable filter.badge) {row : UserRow} {user : RankedUser}
    (hdecode : row.decode b table = some user) (hplain : ∀ badge ∈ user.customBadges, PlainBadge badge)
    (hstored : row.customBadgesJson = badgesJson user.customBadges)
    : filter.selectsBadge b adminIds table row = true
        ↔ Text.contains row.customBadgesJson filter.badge = true
          ∨ (Text.contains "admin" filter.badge = true ∧ adminIds.contains user.id = true)
          ∨ (Text.contains "early" filter.badge = true ∧ 0 < user.userRank ∧ user.userRank ≤ 200) := by
  obtain ⟨hid, -, hrank, -⟩ := UserRow.columns_of_decode hdecode
  have hsmall := small_badgesJson hplain
  have hstoredSmall : Comparable row.customBadgesJson := fun c hc => (hsmall c (hstored ▸ hc)).2
  have hlower : b.sqlLower row.customBadgesJson = row.customBadgesJson :=
    hkeeps _ (fun c hc => (hsmall c (hstored ▸ hc)).1) fun c hc => (hstoredSmall c hc).2
  have hadmin : Comparable "admin" := by
    show ∀ c ∈ ['a', 'd', 'm', 'i', 'n'], c ≠ '\x00' ∧ ¬ ('A' ≤ c ∧ c ≤ 'Z')
    exact List.all_iff_forall_prop.1 (by decide)
  have hearly : Comparable "early" := by
    show ∀ c ∈ ['e', 'a', 'r', 'l', 'y'], c ≠ '\x00' ∧ ¬ ('A' ≤ c ∧ c ≤ 'Z')
    exact List.all_iff_forall_prop.1 (by decide)
  rw [UserListFilter.selectsBadge, hlower]
  rw [sqlLike_name hlike hbadge hstoredSmall, sqlLike_name hlike hbadge hadmin, sqlLike_name hlike hbadge hearly,
    hid, hrank, Bool.or_eq_true, Bool.or_eq_true, Bool.and_eq_true, Bool.and_eq_true, Bool.and_eq_true,
    decide_eq_true_eq, decide_eq_true_eq, or_assoc, and_assoc]
  exact Iff.rfl

theorem exists_mem_badges_iff {user : RankedUser} {needle : String}
    : (∃ badge ∈ user.badges adminIds, Text.contains badge needle = true)
        ↔ (∃ badge ∈ user.customBadges, Text.contains badge needle = true)
          ∨ (Text.contains "admin" needle = true ∧ adminIds.contains user.id = true)
          ∨ (Text.contains "early" needle = true ∧ 0 < user.userRank ∧ user.userRank ≤ 200) := by
  constructor
  . rintro ⟨badge, hmem, hcontains⟩
    rcases RankedUser.mem_badges.1 hmem with ⟨rfl, hadmin⟩ | ⟨rfl, hearly⟩ | hcustom
    . exact .inr (.inl ⟨hcontains, hadmin⟩)
    . exact .inr (.inr ⟨hcontains, hearly⟩)
    . exact .inl ⟨badge, hcustom, hcontains⟩
  . rintro (⟨badge, hcustom, hcontains⟩ | ⟨hcontains, hadmin⟩ | ⟨hcontains, hearly⟩)
    . exact ⟨badge, RankedUser.mem_badges.2 (.inr (.inr hcustom)), hcontains⟩
    . exact ⟨"admin", RankedUser.mem_badges.2 (.inl ⟨rfl, hadmin⟩), hcontains⟩
    . exact ⟨"early", RankedUser.mem_badges.2 (.inr (.inl ⟨rfl, hearly⟩)), hcontains⟩

theorem contains_badgesJson_iff {badges : List String} {needle : String} (hplain : ∀ badge ∈ badges, PlainBadge badge)
    (hne : needle ≠ "") (hmarks : ∀ c ∈ needle.toList, c ∉ listMarks)
    : Text.contains (badgesJson badges) needle = true ↔ ∃ badge ∈ badges, Text.contains badge needle = true := by
  have hmark {c : Char} (hc : c ∈ listMarks) : c ∉ needle.toList := fun hmem => hmarks c hmem hc
  have hne : needle.toList ≠ [] := fun h => hne (String.toList_eq_nil_iff.1 h)
  rw [Text.contains_iff_isInfix, toList_badgesJson hplain,
    Separators.infix_enclosed_iff hne (hmark (by decide)) (hmark (by decide)) (hmark (by decide)) (hmark (by decide))]
  simp only [List.mem_map, exists_exists_and_eq_and, Text.contains_iff_isInfix]

theorem contains_badgesJson_of_mem {badges : List String} {badge needle : String}
    (hplain : ∀ badge ∈ badges, PlainBadge badge) (hmem : badge ∈ badges) (h : Text.contains badge needle = true)
    : Text.contains (badgesJson badges) needle = true := by
  rw [Text.contains_iff_isInfix] at h ⊢
  rw [toList_badgesJson hplain]
  exact h.trans (Separators.infix_enclosed_of_mem (List.mem_map_of_mem hmem))

theorem not_contains_of_mark {badge needle : String} (hplain : PlainBadge badge) {c : Char} (hc : c ∈ needle.toList)
    (hmark : c ∈ listMarks) : Text.contains badge needle = false := by
  by_contra hcontains
  rw [Bool.not_eq_false, Text.contains_iff_isInfix] at hcontains
  exact not_mem_listMarks (hplain c (hcontains.subset hc)) hmark

theorem plainBadge_name : PlainBadge "admin" ∧ PlainBadge "early" := by
  constructor
  . show ∀ c ∈ ['a', 'd', 'm', 'i', 'n'], isBadgeChar c = true
    exact List.all_iff_forall_prop.1 (by decide)
  . show ∀ c ∈ ['e', 'a', 'r', 'l', 'y'], isBadgeChar c = true
    exact List.all_iff_forall_prop.1 (by decide)

theorem plainBadge_of_mem {user : RankedUser} {badge : String} (hcustom : ∀ badge ∈ user.customBadges, PlainBadge badge)
    (hmem : badge ∈ user.badges adminIds) : PlainBadge badge := by
  rcases RankedUser.mem_badges.1 hmem with ⟨rfl, -⟩ | ⟨rfl, -⟩ | hmem
  . exact plainBadge_name.1
  . exact plainBadge_name.2
  . exact hcustom badge hmem

theorem noCapitals_fromParams {x : Externals} (hlower : Lowers x.toLowercase)
    {q status badge lower upper sort : Option String}
    (h : UserListFilter.fromParams x q status badge lower upper sort = .ok filter) : NoCapitals filter.badge := by
  have hfield : filter.badge = Text.takeChars 64 (x.toLowercase (Text.trim (badge.getD ""))) := by
    unfold UserListFilter.fromParams at h
    simp only [bind, Except.bind, pure, Except.pure] at h
    repeat' split at h
    all_goals first | contradiction | exact (Except.ok.inj h) ▸ rfl
  intro c hc
  rw [hfield, Text.takeChars, String.toList_ofList] at hc
  exact hlower.noCapitals _ c (List.mem_of_mem_take hc)

theorem findsBadges_iff (hlike : ComparesAsSql b.sqlLike) (hkeeps : KeepsSmall b.sqlLower)
    (hlower : Lowers b.toLowercase) {q status badge lower upper sort : Option String}
    (hfilter : UserListFilter.fromParams b.toExternals q status badge lower upper sort = .ok filter)
    (hne : filter.badge ≠ "") (hnul : NulFree filter.badge)
    (hwritten : ∀ row ∈ table, ∃ badges, row.HoldsBadges b badges)
    : FindsBadges b adminIds table filter
        ↔ (∀ c ∈ filter.badge.toList, c ∉ listMarks)
          ∨ ∀ row ∈ table, row.decodes → Text.contains row.customBadgesJson filter.badge = false := by
  have hbadge := (noCapitals_fromParams hlower hfilter).comparable hnul
  have hstored {row : UserRow} (hrow : row ∈ table) {user : RankedUser} (hdecode : row.decode b table = some user)
      : (∀ badge ∈ user.customBadges, PlainBadge badge) ∧ row.customBadgesJson = badgesJson user.customBadges := by
    obtain ⟨badges, htext, hread⟩ := hwritten row hrow
    rw [(UserRow.columns_of_decode hdecode).2.2.2, hread]
    exact ⟨plainBadge_sanitizeBadges hlower fun _ h => absurd h List.not_mem_nil, htext⟩
  have hselects {row : UserRow} (hrow : row ∈ table) {user : RankedUser} (hdecode : row.decode b table = some user) :=
    @selectsBadge_iff b adminIds table filter hlike hkeeps hbadge row user hdecode (hstored hrow hdecode).1
      (hstored hrow hdecode).2
  constructor
  . intro hfinds
    by_contra hnot
    obtain ⟨hmarks, hrows⟩ := not_or.1 hnot
    obtain ⟨c, hc, hmark⟩ : ∃ c ∈ filter.badge.toList, c ∈ listMarks := by
      simpa using hmarks
    refine hrows fun row hrow hdecodes => ?_
    obtain ⟨user, hdecode⟩ := @UserRow.exists_decode b row table hdecodes
    by_contra hcontains
    have hselected := (hselects hrow hdecode).2 (.inl (by simpa using hcontains))
    obtain ⟨badge', hmem, hfound⟩ := (hfinds row hrow user hdecode).1 hselected
    rw [not_contains_of_mark (plainBadge_of_mem (hstored hrow hdecode).1 hmem) hc hmark] at hfound
    contradiction
  . intro hcond row hrow user hdecode
    obtain ⟨hplain, htext⟩ := hstored hrow hdecode
    rw [hselects hrow hdecode, exists_mem_badges_iff, htext]
    refine or_congr_left ?_
    rcases hcond with hmarks | hrows
    . exact contains_badgesJson_iff hplain hne hmarks
    . have hdecodes : row.decodes := by
        rw [← @UserRow.isSome_publicUser b adminIds table, UserRow.publicUser, hdecode]
        rfl
      have hnone := htext ▸ hrows row hrow hdecodes
      refine iff_of_false (by simp [hnone]) ?_
      rintro ⟨badge', hmem, hfound⟩
      rw [contains_badgesJson_of_mem hplain hmem hfound] at hnone
      contradiction

def vipRow : UserRow := { id := "1", username := "vera", createdAt := .integer 1, customBadgesJson := "[\"vip\"]" }

def plainRow : UserRow := { id := "2", username := "otto", createdAt := .integer 2 }

theorem holdsBadges_vipRow : ∀ row ∈ [vipRow, plainRow], ∃ badges, row.HoldsBadges sqlBackend badges := by
  intro row hrow
  rcases List.mem_pair.1 hrow with rfl | rfl
  . exact ⟨["VIP"], by decide +kernel, by decide +kernel⟩
  . exact ⟨[], by decide +kernel, by decide +kernel⟩

/--
The search for a bracket finds everybody.
-/
theorem not_findsBadges_bracket
    : ∃ filter, UserListFilter.fromParams sqlExternals none none (some "[") none none none = .ok filter
        ∧ filter.badge ≠ "" ∧ NulFree filter.badge
        ∧ (∀ row ∈ [vipRow, plainRow], ∃ badges, row.HoldsBadges sqlBackend badges)
        ∧ ¬ FindsBadges sqlBackend [] [vipRow, plainRow] filter := by
  refine ⟨{ badge := "[" }, by decide +kernel, by decide, List.all_iff_forall_prop.1 (by decide),
    holdsBadges_vipRow, fun hfinds => ?_⟩
  obtain ⟨badge, hmem, hcontains⟩ := (hfinds vipRow List.mem_cons_self _ rfl).1 (by decide +kernel)
  have hbadges : ∀ badge ∈ ["early", "vip"], Text.contains badge "[" = false := by decide +kernel
  rw [hbadges badge hmem] at hcontains
  contradiction

/--
The search for a part of a badge finds the account that shows it, and not the other one.
-/
theorem findsBadges_iff_vip
    : ∃ filter, UserListFilter.fromParams sqlExternals none none (some " Vi ") none none none = .ok filter
        ∧ [vipRow, plainRow].filter (filter.selectsBadge sqlBackend [] [vipRow, plainRow]) = [vipRow]
        ∧ FindsBadges sqlBackend [] [vipRow, plainRow] filter := by
  have hfilter : UserListFilter.fromParams sqlBackend.toExternals none none (some " Vi ") none none none
      = .ok { badge := "vi" } := by decide +kernel
  have hnul : NulFree "vi" := by
    show ∀ c ∈ ['v', 'i'], c ≠ '\x00'
    exact List.all_iff_forall_prop.1 (by decide)
  refine ⟨{ badge := "vi" }, hfilter, by decide +kernel, (findsBadges_iff (fun _ _ _ _ => rfl)
    keepsSmall_toAsciiLower lowers_toAsciiLower hfilter (by decide) hnul holdsBadges_vipRow).2
      (.inl (List.all_iff_forall_prop.1 (by decide +kernel)))⟩

end Search

end Lqxp

namespace Lqxp

variable {x : Externals}

/--
A name that an account can wear: it is not empty, and not one of the server's own.
-/
def Wearable (badge : String) : Prop := badge ≠ "" ∧ badge ∉ reservedBadges

instance : DecidablePred Wearable := fun badge => inferInstanceAs (Decidable (badge ≠ "" ∧ badge ∉ reservedBadges))

theorem length_sanitizeBadge_le (badge : String) : (sanitizeBadge x badge).toList.length ≤ maxUserBadgeLen := by
  rw [sanitizeBadge, String.toList_ofList]
  exact List.length_take_le _ _

theorem sanitizeBadges_cons (badge : String) (badges cleaned : List String)
    : sanitizeBadges x (badge :: badges) cleaned
        = if Wearable (sanitizeBadge x badge) ∧ sanitizeBadge x badge ∉ cleaned then
            if maxUserBadges ≤ cleaned.length + 1 then cleaned ++ [sanitizeBadge x badge]
            else sanitizeBadges x badges (cleaned ++ [sanitizeBadge x badge])
          else
            sanitizeBadges x badges cleaned := by
  rw [sanitizeBadges]
  by_cases hworn : Wearable (sanitizeBadge x badge) ∧ sanitizeBadge x badge ∉ cleaned
  . rw [if_pos hworn, if_neg]
    simpa [Wearable, and_assoc] using hworn
  . rw [if_neg hworn, if_pos]
    simp only [Wearable, not_and_or, not_not, ne_eq] at hworn
    simpa [or_assoc] using hworn

/--
The list so far: wearable names of the texts before, in the order of their first occurrences in all of them.
-/
structure Cleaned (names before cleaned : List String) : Prop where
  length : cleaned.length < maxUserBadges
  wearable : ∀ badge ∈ cleaned, Wearable badge
  mem : ∀ badge ∈ cleaned, badge ∈ before
  all : ∀ badge ∈ before, Wearable badge → badge ∈ cleaned
  order : cleaned.Pairwise fun a b => names.idxOf a < names.idxOf b

/--
The names that an account gets.
-/
structure Normalized (names cleaned : List String) : Prop where
  length : cleaned.length ≤ maxUserBadges
  wearable : ∀ badge ∈ cleaned, Wearable badge
  mem : ∀ badge ∈ cleaned, badge ∈ names
  order : cleaned.Pairwise fun a b => names.idxOf a < names.idxOf b

theorem Cleaned.concat {names before rest cleaned : List String} {badge : String} (h : Cleaned names before cleaned)
    (hnames : names = before ++ badge :: rest) (hworn : Wearable badge) (hnew : badge ∉ cleaned)
    : (cleaned ++ [badge]).Pairwise fun a b => names.idxOf a < names.idxOf b := by
  have hfirst : badge ∉ before := fun hmem => hnew (h.all badge hmem hworn)
  refine List.pairwise_append.2 ⟨h.order, List.pairwise_singleton _ _, fun a ha b hb => ?_⟩
  obtain rfl := List.mem_singleton.1 hb
  rw [hnames, List.idxOf_append_of_mem (h.mem a ha), List.idxOf_append_of_notMem hfirst, List.idxOf_cons_self,
    Nat.add_zero]
  exact List.idxOf_lt_length_of_mem (h.mem a ha)

theorem normalized_sanitizeBadges {badges before cleaned names : List String}
    (hnames : names = before ++ badges.map (sanitizeBadge x)) (h : Cleaned names before cleaned)
    : Normalized names (sanitizeBadges x badges cleaned) := by
  induction badges generalizing before cleaned with
  | nil =>
    rw [List.map_nil, List.append_nil] at hnames
    exact ⟨Nat.le_of_lt h.length, h.wearable, hnames ▸ h.mem, h.order⟩
  | cons badge badges ih =>
    rw [List.map_cons] at hnames
    have hrest : names = (before ++ [sanitizeBadge x badge]) ++ badges.map (sanitizeBadge x) := by
      rw [hnames, List.append_assoc, List.singleton_append]
    rw [sanitizeBadges_cons]
    split
    next hpushed =>
      obtain ⟨hworn, hnew⟩ := hpushed
      have horder := h.concat hnames hworn hnew
      have hwearable : ∀ other ∈ cleaned ++ [sanitizeBadge x badge], Wearable other :=
        List.forall_mem_append.2 ⟨h.wearable, List.forall_mem_singleton.2 hworn⟩
      have hmem : ∀ other ∈ cleaned ++ [sanitizeBadge x badge], other ∈ before ++ [sanitizeBadge x badge] := by
        intro other hother
        rcases List.mem_append.1 hother with hother | hother
        . exact List.mem_append_left _ (h.mem other hother)
        . exact List.mem_append_right _ hother
      have hlength := h.length
      split
      . refine ⟨?_, hwearable, fun other hother => ?_, horder⟩
        . rw [List.length_append, List.length_singleton]
          omega
        . rw [hrest]
          exact List.mem_append_left _ (hmem other hother)
      . refine ih hrest ⟨?_, hwearable, hmem, fun other hother hother' => ?_, horder⟩
        . rw [List.length_append, List.length_singleton]
          omega
        . rcases List.mem_append.1 hother with hother | hother
          . exact List.mem_append_left _ (h.all other hother hother')
          . exact List.mem_append_right _ hother
    next hskipped =>
      refine ih hrest ⟨h.length, h.wearable, fun other hother => List.mem_append_left _ (h.mem other hother),
        fun other hother hworn => ?_, h.order⟩
      rcases List.mem_append.1 hother with hother | hother
      . exact h.all other hother hworn
      . obtain rfl := List.mem_singleton.1 hother
        by_contra hnew
        exact hskipped ⟨hworn, hnew⟩

theorem normalized_sanitizeCustomBadges (badges : List String)
    : Normalized (badges.map (sanitizeBadge x)) (sanitizeCustomBadges x badges) := by
  have hstart : Cleaned (badges.map (sanitizeBadge x)) [] [] :=
    ⟨by decide, List.forall_mem_nil _, List.forall_mem_nil _, List.forall_mem_nil _, List.Pairwise.nil⟩
  exact normalized_sanitizeBadges rfl hstart

theorem Normalized.nodup {names cleaned : List String} (h : Normalized names cleaned) : cleaned.Nodup := by
  refine List.Pairwise.imp (fun hlt => ?_) h.order
  rintro rfl
  exact Nat.lt_irrefl _ hlt

section Fixed

theorem not_isWhitespace_of_isBadgeChar {c : Char} (h : isBadgeChar c = true) : Text.isWhitespace c = false := by
  rw [isBadgeChar, Bool.and_eq_true] at h
  exact Text.not_isWhitespace_of_isNameChar h.1

theorem sanitizeBadge_eq_self (hkeeps : KeepsSmall x.toLowercase) {badge : String} (hplain : PlainBadge badge)
    (hlength : badge.toList.length ≤ maxUserBadgeLen) : sanitizeBadge x badge = badge := by
  have htrim : Text.trim badge = badge :=
    Text.trim_eq_self (Text.trimmed_of_forall fun c hc => not_isWhitespace_of_isBadgeChar (hplain c hc))
  have hlower : x.toLowercase badge = badge :=
    hkeeps badge (fun c hc => (small_badgeChar (hplain c hc)).1) fun c hc => (small_badgeChar (hplain c hc)).2.2
  have hkept : badge.toList.filter (fun c => Text.isAsciiAlphanumeric c || c = '_' || c = '-') = badge.toList := by
    refine List.filter_eq_self.2 fun c hc => ?_
    have := hplain c hc
    rw [isBadgeChar, Bool.and_eq_true] at this
    exact this.1
  rw [sanitizeBadge, htrim, hlower, hkept, List.take_of_length_le hlength, String.ofList_toList]

theorem sanitizeBadges_eq_append {badges cleaned : List String} (hself : ∀ badge ∈ badges, sanitizeBadge x badge = badge)
    (hworn : ∀ badge ∈ badges, Wearable badge) (hnodup : (cleaned ++ badges).Nodup)
    (hlength : (cleaned ++ badges).length ≤ maxUserBadges) : sanitizeBadges x badges cleaned = cleaned ++ badges := by
  induction badges generalizing cleaned with
  | nil => rw [sanitizeBadges, List.append_nil]
  | cons badge badges ih =>
    obtain ⟨hbadge, hself⟩ := List.forall_mem_cons.1 hself
    obtain ⟨hbadge', hworn⟩ := List.forall_mem_cons.1 hworn
    have hnew : badge ∉ cleaned := by
      intro hmem
      exact (List.nodup_append.1 hnodup).2.2 badge hmem badge (.head _) rfl
    have hrest : cleaned ++ badge :: badges = (cleaned ++ [badge]) ++ badges := by
      rw [List.append_assoc, List.singleton_append]
    rw [sanitizeBadges_cons, hbadge, if_pos ⟨hbadge', hnew⟩]
    rw [hrest] at hnodup hlength ⊢
    split
    next hfull =>
      -- The list is full, so nothing is left to add.
      rw [List.length_append, List.length_append, List.length_singleton] at hlength
      obtain rfl : badges = [] := List.eq_nil_of_length_eq_zero (by omega)
      rw [List.append_nil]
    next => exact ih hself hworn hnodup hlength

end Fixed

theorem range_of_isBadgeChar {c : Char} (h : isBadgeChar c = true)
    : ('a' ≤ c ∧ c ≤ 'z') ∨ ('0' ≤ c ∧ c ≤ '9') ∨ c = '_' ∨ c = '-' := by
  have hsmall := (small_badgeChar h).2.2
  rw [isBadgeChar, Bool.and_eq_true] at h
  simp only [Text.isAsciiAlphanumeric, Bool.or_eq_true, Bool.and_eq_true, decide_eq_true_eq] at h
  rcases h.1 with (((hc | hc) | hc) | hc) | hc
  . exact .inr (.inl hc)
  . exact .inl hc
  . exact absurd hc hsmall
  . exact .inr (.inr (.inl hc))
  . exact .inr (.inr (.inr hc))

theorem not_reserved {badge : String} (h : badge ∉ reservedBadges)
    : badge ≠ "admin" ∧ badge ≠ "staff" ∧ badge ≠ "system" := by
  simpa [reservedBadges] using h

/--
The badges that are kept are few, distinct and in the form of badges, in the order of their first occurrences, and
they are kept again.
-/
theorem sanitizeCustomBadges_normalized (hlower : Lowers x.toLowercase) (hkeeps : KeepsSmall x.toLowercase)
    (badges : List String)
    : let cleaned := sanitizeCustomBadges x badges
      cleaned.length ≤ 16 ∧ cleaned.Nodup
        ∧ (∀ badge ∈ cleaned, badge ≠ "" ∧ badge.toList.length ≤ 32
          ∧ (∀ c ∈ badge.toList, ('a' ≤ c ∧ c ≤ 'z') ∨ ('0' ≤ c ∧ c ≤ '9') ∨ c = '_' ∨ c = '-')
          ∧ badge ≠ "admin" ∧ badge ≠ "staff" ∧ badge ≠ "system"
          ∧ badge ∈ badges.map (sanitizeBadge x))
        ∧ (cleaned.Pairwise fun a b =>
          (badges.map (sanitizeBadge x)).idxOf a < (badges.map (sanitizeBadge x)).idxOf b)
        ∧ sanitizeCustomBadges x cleaned = cleaned := by
  intro cleaned
  have hnormal : Normalized (badges.map (sanitizeBadge x)) cleaned := normalized_sanitizeCustomBadges badges
  have hplain : ∀ badge ∈ cleaned, PlainBadge badge :=
    plainBadge_sanitizeBadges hlower fun _ h => absurd h List.not_mem_nil
  have hlength : ∀ badge ∈ cleaned, badge.toList.length ≤ maxUserBadgeLen := by
    intro badge hbadge
    obtain ⟨source, -, rfl⟩ := List.mem_map.1 (hnormal.mem badge hbadge)
    exact length_sanitizeBadge_le source
  refine ⟨hnormal.length, hnormal.nodup, fun badge hbadge => ?_, hnormal.order, ?_⟩
  . obtain ⟨hne, hreserved⟩ := hnormal.wearable badge hbadge
    obtain ⟨hadmin, hstaff, hsystem⟩ := not_reserved hreserved
    exact ⟨hne, hlength badge hbadge, fun c hc => range_of_isBadgeChar (hplain badge hbadge c hc), hadmin, hstaff, hsystem,
      hnormal.mem badge hbadge⟩
  . have hself : ∀ badge ∈ cleaned, sanitizeBadge x badge = badge := fun badge hbadge =>
      sanitizeBadge_eq_self hkeeps (hplain badge hbadge) (hlength badge hbadge)
    rw [sanitizeCustomBadges, sanitizeBadges_eq_append hself hnormal.wearable hnormal.nodup hnormal.length,
      List.nil_append]

theorem sanitizeCustomBadges_normalized_vip
    : sanitizeCustomBadges sqlExternals [" VIP ", "Staff", "v.i.p"] = ["vip"]
        ∧ sanitizeCustomBadges sqlExternals ["vip"] = ["vip"] := by
  have hcleaned : sanitizeCustomBadges sqlExternals [" VIP ", "Staff", "v.i.p"] = ["vip"] := by decide +kernel
  have hagain := (sanitizeCustomBadges_normalized lowers_toAsciiLower keepsSmall_toAsciiLower
    [" VIP ", "Staff", "v.i.p"] (x := sqlExternals)).2.2.2.2
  exact ⟨hcleaned, hcleaned ▸ hagain⟩

end Lqxp
