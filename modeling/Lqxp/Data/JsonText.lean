import Lqxp.Data.Fields
import Lqxp.Data.Json
import Lqxp.Data.Unambiguous

/-!
This module contains how the strings and numbers of a JSON text can be told from what follows them.
-/

namespace Lqxp

open Unambiguous

section Strings

def escapeCode (c : Char) : List Char := (Json.escapeChar c).toList

/--
The characters that are not written as they are.
-/
def escaped : List Char := '"' :: '\\' :: (List.range 0x20).map Char.ofNat

theorem escapeCode_of_not_mem {c : Char} (h : c ∉ escaped) : escapeCode c = [c] := by
  have hquote : c ≠ '"' := by
    rintro rfl
    exact h (by decide)
  have hslash : c ≠ '\\' := by
    rintro rfl
    exact h (by decide)
  have hcontrol : 0x20 ≤ c.toNat := by
    by_contra hlt
    refine h (.tail _ (.tail _ (List.mem_map.2 ⟨c.toNat, List.mem_range.2 (by omega), Char.ofNat_toNat c⟩)))
  unfold escapeCode Json.escapeChar
  split
  . exact absurd rfl hquote
  . exact absurd rfl hslash
  . exact absurd hcontrol (by decide)
  . exact absurd hcontrol (by decide)
  . exact absurd hcontrol (by decide)
  . rw [if_neg (by omega), if_neg (by omega), if_neg (by omega), if_neg (by omega), Char.toString_eq_singleton,
      String.toList_singleton]

theorem prefix_escaped : ∀ a ∈ escaped, ∀ b ∈ escaped, (escapeCode a).isPrefixOf (escapeCode b) → a = b := by
  have hall : (escaped.all fun a => escaped.all fun b =>
      !((escapeCode a).isPrefixOf (escapeCode b)) || a = b) = true := by decide +kernel
  intro a ha b hb hbegins
  have hpair := List.all_eq_true.1 (List.all_eq_true.1 hall a ha) b hb
  rwa [hbegins, Bool.not_true, Bool.false_or, decide_eq_true_eq] at hpair

theorem head_escaped : ∀ a ∈ escaped, (escapeCode a).head? = some '\\' := by
  have hall : (escaped.all fun a => (escapeCode a).head? = some '\\') = true := by decide +kernel
  intro a ha
  exact of_decide_eq_true (List.all_eq_true.1 hall a ha)

theorem escapeCode_cons (c : Char)
    : (c ∈ escaped ∧ ∃ rest, escapeCode c = '\\' :: rest) ∨ (c ∉ escaped ∧ escapeCode c = [c]) := by
  by_cases hc : c ∈ escaped
  . refine .inl ⟨hc, ?_⟩
    have hhead := head_escaped c hc
    cases hcode : escapeCode c with
    | nil =>
      rw [hcode] at hhead
      contradiction
    | cons d rest =>
      rw [hcode] at hhead
      obtain rfl := Option.some.inj hhead
      exact ⟨rest, rfl⟩
  . exact .inr ⟨hc, escapeCode_of_not_mem hc⟩

theorem prefixFree_escapeCode : PrefixFree escapeCode := by
  intro a b hbegins
  rcases escapeCode_cons a with ⟨ha, resta, hcodea⟩ | ⟨ha, hcodea⟩
  . rcases escapeCode_cons b with ⟨hb, restb, hcodeb⟩ | ⟨hb, hcodeb⟩
    . exact prefix_escaped a ha b hb (List.isPrefixOf_iff_prefix.2 hbegins)
    . rw [hcodea, hcodeb, List.cons_prefix_cons] at hbegins
      exact absurd (by decide) (hbegins.1 ▸ hb)
  . rcases escapeCode_cons b with ⟨hb, restb, hcodeb⟩ | ⟨hb, hcodeb⟩
    . rw [hcodea, hcodeb, List.cons_prefix_cons] at hbegins
      exact absurd (by decide) (hbegins.1 ▸ ha)
    . rw [hcodea, hcodeb, List.cons_prefix_cons] at hbegins
      exact hbegins.1

theorem toList_renderStr (s : String)
    : (Json.renderStr s).toList = '"' :: (s.toList.flatMap escapeCode ++ ['"']) := by
  simp only [Json.renderStr, String.toList_append, String.toList_join, List.flatMap_map]
  rfl

theorem renderStr_append_inj {s t : String} {x y : List Char}
    (h : (Json.renderStr s).toList ++ x = (Json.renderStr t).toList ++ y) : s = t ∧ x = y := by
  have htext (s : String) (x : List Char)
      : (Json.renderStr s).toList ++ x = '"' :: (s.toList.flatMap escapeCode ++ '"' :: x) := by
    rw [toList_renderStr, List.cons_append, List.append_assoc, List.singleton_append]
  rw [htext, htext] at h
  have hhead (c : Char) : ∃ b rest, escapeCode c = b :: rest ∧ b ≠ '"' := by
    rcases escapeCode_cons c with ⟨-, rest, hcode⟩ | ⟨hc, hcode⟩
    . exact ⟨_, rest, hcode, by decide⟩
    . refine ⟨c, [], hcode, ?_⟩
      rintro rfl
      exact hc (by decide)
  obtain ⟨hchars, hxy⟩ := prefixFree_escapeCode.flatMap_inj hhead (List.cons.inj h).2
  exact ⟨String.toList_inj.1 hchars, hxy⟩

end Strings

section Numbers

def isNumberChar (c : Char) : Bool := c.isDigit || c = '+' || c = '-' || c = '.' || c = 'e' || c = 'E'

/--
Nothing that would go on with a number.
-/
def Ends (x : List Char) : Prop := ∀ c ∈ x.head?, isNumberChar c = false

def IsNumber (cs : List Char) : Prop := cs ≠ [] ∧ ∀ c ∈ cs, isNumberChar c

theorem isNumberChar_of_isDigit {c : Char} (h : c.isDigit) : isNumberChar c := by
  simp [isNumberChar, h]

theorem toList_int (n : Int)
    : (toString n).toList = if 0 ≤ n then (toString n.toNat).toList else '-' :: (toString (-n).toNat).toList := by
  rw [Int.toString_eq_repr, Int.repr_eq_if]
  split
  . rfl
  . rw [String.toList_append]
    rfl

theorem isNumber_nat (n : Nat) : IsNumber (toString n).toList := by
  refine ⟨?_, fun c hc => isNumberChar_of_isDigit (Text.isDigit_of_mem_toString hc)⟩
  rw [Nat.toString_eq_repr, Nat.toList_repr]
  exact Nat.toDigits_ne_nil

theorem isNumber_int (n : Int) : IsNumber (toString n).toList := by
  rw [toList_int]
  split
  . exact isNumber_nat _
  . refine ⟨List.cons_ne_nil _ _, fun c hc => ?_⟩
    rcases List.mem_cons.1 hc with rfl | hc
    . decide
    . exact (isNumber_nat _).2 c hc

theorem toString_int_inj {m n : Int} (h : toString m = toString n) : m = n := by
  have hminus (n : Nat) (cs : List Char) : (toString n).toList ≠ '-' :: cs := by
    intro heq
    exact Text.not_mem_toString (by decide) n (heq ▸ List.mem_cons_self)
  have hchars := congrArg String.toList h
  rw [toList_int, toList_int] at hchars
  split at hchars
  . split at hchars
    . have := Text.toString_inj (String.toList_inj.1 hchars)
      omega
    . exact absurd hchars (hminus _ _)
  . split at hchars
    . exact absurd hchars.symm (hminus _ _)
    . have := Text.toString_inj (String.toList_inj.1 (List.cons.inj hchars).2)
      omega

theorem IsNumber.append_inj {p q x y : List Char} (hp : IsNumber p) (hq : IsNumber q) (hx : Ends x) (hy : Ends y)
    (h : p ++ x = q ++ y) : p = q ∧ x = y := by
  have htake {p x : List Char} (hp : IsNumber p) (hx : Ends x) : (p ++ x).takeWhile isNumberChar = p := by
    rw [List.takeWhile_append_of_pos hp.2]
    cases x with
    | nil => simp
    | cons c cs =>
      rw [List.takeWhile_cons_of_neg (by simp [hx c rfl])]
      simp
  have hpq : p = q := by rw [← htake hp hx, h, htake hq hy]
  rw [hpq] at h
  exact ⟨hpq, List.append_cancel_left h⟩

theorem ends_cons {c : Char} (hc : isNumberChar c = false) (x : List Char) : Ends (c :: x) := by
  rintro d ⟨⟩
  exact hc

theorem ends_nil : Ends [] := by
  intro c hc
  contradiction

end Numbers

end Lqxp
