import Lqxp.Core.UserList
import Lqxp.Data.SqlLike

/-!
This module contains what the server relies on when it searches the database with patterns.
-/

namespace Lqxp

/--
A text without a capital letter of ASCII.
-/
def NoCapitals (s : String) : Prop := ∀ c ∈ s.toList, ¬ ('A' ≤ c ∧ c ≤ 'Z')

/--
A text without the character NUL, at which an engine takes a text to end.
-/
def NulFree (s : String) : Prop := ∀ c ∈ s.toList, c ≠ '\x00'

/--
A text that all engines compare alike: some tell capital letters from small ones, and some only look at what
comes before a NUL.
-/
def Comparable (s : String) : Prop := ∀ c ∈ s.toList, c ≠ '\x00' ∧ ¬ ('A' ≤ c ∧ c ≤ 'Z')

/--
An engine compares such texts as SQL says.
-/
def ComparesAsSql (sqlLike : String → String → Bool) : Prop :=
  ∀ pattern text, Comparable pattern → Comparable text → sqlLike pattern text = Sql.like pattern.toList text.toList

/--
What the standard library says of texts in lower case.
-/
structure Lowers (toLowercase : String → String) : Prop where
  noCapitals : ∀ s, NoCapitals (toLowercase s)
  empty : toLowercase "" = ""

theorem NoCapitals.comparable {s : String} (h : NoCapitals s) (hnul : NulFree s) : Comparable s :=
  fun c hc => ⟨hnul c hc, h c hc⟩

section Patterns

variable {sqlLike : String → String → Bool} {needle text : String}

theorem toList_escapeLikePattern (value : String)
    : (escapeLikePattern value).toList = Sql.escape value.toList := by
  simp only [escapeLikePattern, Text.toList_replace, List.flatMap_assoc]
  refine List.flatMap_congr fun c _ => ?_
  by_cases hslash : c = '\\'
  . rw [hslash]
    rfl
  . by_cases hpercent : c = '%'
    . rw [hpercent]
      rfl
    . by_cases hunderscore : c = '_'
      . rw [hunderscore]
        rfl
      . -- Neither a replacement nor the quoting of the pattern touches the character.
        simp [Sql.isSpecial, hslash, hpercent, hunderscore]

/--
The patterns find the texts that contain the needle and those that begin with it.
-/
theorem like_escapeLikePattern (needle text : String)
    : (Sql.like ("%" ++ escapeLikePattern needle ++ "%").toList text.toList = true ↔ needle.toList <:+: text.toList)
        ∧ (Sql.like (escapeLikePattern needle ++ "%").toList text.toList = true
          ↔ needle.toList <+: text.toList) := by
  have hcontaining : ("%" ++ escapeLikePattern needle ++ "%").toList = Sql.containing needle.toList := by
    rw [String.toList_append, String.toList_append, toList_escapeLikePattern]
    rfl
  have hbeginning : (escapeLikePattern needle ++ "%").toList = Sql.escape needle.toList ++ ['%'] := by
    rw [String.toList_append, toList_escapeLikePattern]
    rfl
  rw [hcontaining, hbeginning]
  exact ⟨Sql.like_containing, Sql.like_beginning⟩

theorem comparable_pattern (h : Comparable needle) : Comparable ("%" ++ escapeLikePattern needle ++ "%") := by
  intro c hc
  simp only [String.toList_append, toList_escapeLikePattern, List.mem_append] at hc
  have hescape : c ∈ Sql.escape needle.toList → c = '\\' ∨ c ∈ needle.toList := by
    intro hc
    obtain ⟨d, hd, hc⟩ := List.mem_flatMap.1 hc
    split at hc
    . rcases List.mem_cons.1 hc with rfl | hc
      . exact .inl rfl
      . exact .inr (List.mem_singleton.1 hc ▸ hd)
    . exact .inr (List.mem_singleton.1 hc ▸ hd)
  rcases hc with (hc | hc) | hc
  . obtain rfl : c = '%' := by simpa using hc
    decide
  . rcases hescape hc with rfl | hc
    . decide
    . exact h c hc
  . obtain rfl : c = '%' := by simpa using hc
    decide

theorem sqlLike_containing (h : ComparesAsSql sqlLike) (hneedle : Comparable needle) (htext : Comparable text)
    : sqlLike ("%" ++ escapeLikePattern needle ++ "%") text = Text.contains text needle := by
  rw [h _ _ (comparable_pattern hneedle) htext, Bool.eq_iff_iff, Text.contains_iff_isInfix, ← Sql.like_containing,
    String.toList_append, String.toList_append, toList_escapeLikePattern]
  rfl

theorem sqlLike_beginning (h : ComparesAsSql sqlLike) (hneedle : Comparable needle) (htext : Comparable text)
    : sqlLike (escapeLikePattern needle ++ "%") text = Text.startsWith text needle := by
  have hpattern : Comparable (escapeLikePattern needle ++ "%") := by
    intro c hc
    refine comparable_pattern hneedle c ?_
    rw [String.append_assoc, String.toList_append]
    exact List.mem_append_right _ hc
  rw [h _ _ hpattern htext, Bool.eq_iff_iff, Text.startsWith, List.isPrefixOf_iff_prefix, ← Sql.like_beginning,
    String.toList_append, toList_escapeLikePattern]
  rfl

theorem sqlLike_everything (h : ComparesAsSql sqlLike) (htext : Comparable text) : sqlLike "%" text = true := by
  have hpattern : Comparable "%" := by
    intro c hc
    obtain rfl : c = '%' := by simpa using hc
    decide
  rw [h _ _ hpattern htext]
  exact Sql.like_percent_nil _

end Patterns

section Ascii

theorem not_capital_toAsciiLowerChar (c : Char)
    : ¬ ('A' ≤ Text.toAsciiLowerChar c ∧ Text.toAsciiLowerChar c ≤ 'Z') := by
  rw [Text.toAsciiLowerChar]
  split
  next hcapital =>
    rw [Bool.and_eq_true, decide_eq_true_eq, decide_eq_true_eq] at hcapital
    have hall : ∀ n, 65 ≤ n → n ≤ 90 → ¬ Char.ofNat (n + 32) ≤ 'Z' := by decide
    exact fun h => hall c.toNat hcapital.1 hcapital.2 h.2
  next hnot =>
    rw [Bool.and_eq_true, decide_eq_true_eq, decide_eq_true_eq] at hnot
    exact hnot

theorem lowers_toAsciiLower : Lowers Text.toAsciiLower where
  noCapitals s c hc := by
    rw [Text.toAsciiLower, String.toList_ofList] at hc
    obtain ⟨d, -, rfl⟩ := List.mem_map.1 hc
    exact not_capital_toAsciiLowerChar d
  empty := rfl

theorem nulFree_toAsciiLower {s : String} (h : NulFree s) : NulFree (Text.toAsciiLower s) := by
  intro c hc
  rw [Text.toAsciiLower, String.toList_ofList] at hc
  obtain ⟨d, hd, rfl⟩ := List.mem_map.1 hc
  rw [Text.toAsciiLowerChar]
  split
  next hcapital =>
    rw [Bool.and_eq_true, decide_eq_true_eq, decide_eq_true_eq] at hcapital
    have hall : ∀ n, 65 ≤ n → n ≤ 90 → Char.ofNat (n + 32) ≠ '\x00' := by decide
    exact hall d.toNat hcapital.1 hcapital.2
  next => exact h d hd

theorem comparable_toAsciiLower {s : String} (h : NulFree s) : Comparable (Text.toAsciiLower s) :=
  (lowers_toAsciiLower.noCapitals s).comparable (nulFree_toAsciiLower h)

/--
An engine leaves small letters of ASCII as they are.
-/
def KeepsSmall (sqlLower : String → String) : Prop :=
  ∀ s, (∀ c ∈ s.toList, c.toNat < 0x80) → NoCapitals s → sqlLower s = s

theorem keepsSmall_toAsciiLower : KeepsSmall Text.toAsciiLower := by
  intro s _ hsmall
  have hsame : s.toList.map Text.toAsciiLowerChar = s.toList := by
    refine List.map_congr_left (g := id) ?_ |>.trans (List.map_id _)
    intro c hc
    rw [Text.toAsciiLowerChar, if_neg (by simpa using hsmall c hc), id]
  rw [Text.toAsciiLower, hsame, String.ofList_toList]

/--
An engine that does what SQL says, and a standard library for ASCII.
-/
def sqlExternals : Externals where
  hashSecret _ secret := secret
  verifySecret secret hash := secret = hash
  toLowercase := Text.toAsciiLower
  isAlphanumeric := Text.isAsciiAlphanumeric
  sqlLower := Text.toAsciiLower
  sqlLike pattern text := Sql.like pattern.toList text.toList
  blocklistTerms := []

/--
An engine that does what SQL says, and a JSON library for two texts.
-/
def sqlBackend : Backend where
  toExternals := sqlExternals
  textLt s t := s < t
  profileFromJson _ := {}
  badgesFromJson text := if text = "[\"vip\"]" then ["vip"] else []

end Ascii

end Lqxp
