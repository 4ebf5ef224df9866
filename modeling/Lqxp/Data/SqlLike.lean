import Mathlib.Data.List.Infix
import Lqxp.Data.Text

/-!
This module contains the patterns of SQL, with the backslash as escape: which texts match them, and that an
escaped text between two percent signs looks for just that text.
-/

namespace Sql

/--
Whether a text starts with a character as given, and goes on as given.
-/
def startsWith (head : Char → Bool) (tail : List Char → Bool) : List Char → Bool
  | [] => false
  | d :: text => head d && tail text

/--
Whether a text matches a pattern. A percent sign stands for any text and an underscore for any character; what
is behind a backslash stands for itself.
-/
def like : List Char → List Char → Bool
  | [], text => text.isEmpty
  | c :: pattern, text =>
    if c = '%' then
      text.tails.any (like pattern)
    else if c = '_' then
      startsWith (fun _ => true) (like pattern) text
    else if c = '\\' then
      match pattern with
      | [] => false
      | e :: pattern => startsWith (· = e) (like pattern) text
    else
      startsWith (· = c) (like pattern) text

def isSpecial (c : Char) : Bool := ['\\', '%', '_'].contains c

def escape (needle : List Char) : List Char := needle.flatMap fun c => if isSpecial c then ['\\', c] else [c]

/--
The pattern of the texts that contain a given one.
-/
def containing (needle : List Char) : List Char := '%' :: (escape needle ++ ['%'])

section Like

variable {needle pattern text : List Char}

theorem like_percent : like ('%' :: pattern) text = true ↔ ∃ rest, rest <:+ text ∧ like pattern rest = true := by
  have hlike : like ('%' :: pattern) text = text.tails.any (like pattern) := by cases pattern <;> rfl
  rw [hlike, List.any_eq_true]
  simp only [List.mem_tails]

theorem like_backslash (c : Char)
    : like ('\\' :: c :: pattern) text = startsWith (· = c) (like pattern) text := rfl

theorem like_plain {c : Char} (h : ¬ isSpecial c)
    : like (c :: pattern) text = startsWith (· = c) (like pattern) text := by
  simp only [isSpecial, List.contains_iff_mem, List.mem_cons, List.not_mem_nil, or_false, not_or] at h
  rw [like.eq_def]
  dsimp only
  rw [if_neg h.2.1, if_neg h.2.2, if_neg h.1]

theorem startsWith_eq_iff {c : Char} {tail : List Char → Bool}
    : startsWith (· = c) tail text = true ↔ ∃ rest, text = c :: rest ∧ tail rest = true := by
  cases text with
  | nil => simp [startsWith]
  | cons d text =>
    simp only [startsWith, Bool.and_eq_true, decide_eq_true_eq, List.cons.injEq]
    constructor
    . rintro ⟨rfl, h⟩
      exact ⟨text, ⟨rfl, rfl⟩, h⟩
    . rintro ⟨rest, ⟨rfl, rfl⟩, h⟩
      exact ⟨rfl, h⟩

theorem like_percent_nil (text : List Char) : like ['%'] text = true := by
  rw [like_percent]
  exact ⟨[], List.nil_suffix, rfl⟩

theorem like_escape_cons {c : Char}
    : like ((if isSpecial c then ['\\', c] else [c]) ++ pattern) text = true
        ↔ ∃ rest, text = c :: rest ∧ like pattern rest = true := by
  rw [← startsWith_eq_iff]
  split
  . rw [List.cons_append, List.singleton_append, like_backslash]
  next hplain => rw [List.singleton_append, like_plain hplain]

theorem like_escape_append
    : like (escape needle ++ pattern) text = true ↔ ∃ rest, text = needle ++ rest ∧ like pattern rest = true := by
  induction needle generalizing text with
  | nil => simp [escape]
  | cons c needle ih =>
    rw [escape, List.flatMap_cons, List.append_assoc, like_escape_cons]
    constructor
    . rintro ⟨rest, rfl, hrest⟩
      obtain ⟨rest, rfl, hlike⟩ := ih.1 hrest
      exact ⟨rest, rfl, hlike⟩
    . rintro ⟨rest, rfl, hlike⟩
      exact ⟨needle ++ rest, rfl, ih.2 ⟨rest, rfl, hlike⟩⟩

theorem like_containing : like (containing needle) text = true ↔ needle <:+: text := by
  rw [containing, like_percent]
  constructor
  . rintro ⟨rest, ⟨before, rfl⟩, hlike⟩
    obtain ⟨after, rfl, -⟩ := like_escape_append.1 hlike
    exact ⟨before, after, by rw [List.append_assoc]⟩
  . rintro ⟨before, after, rfl⟩
    refine ⟨needle ++ after, ⟨before, by rw [List.append_assoc]⟩, ?_⟩
    exact like_escape_append.2 ⟨after, rfl, like_percent_nil after⟩

theorem like_beginning : like (escape needle ++ ['%']) text = true ↔ needle <+: text := by
  rw [like_escape_append]
  constructor
  . rintro ⟨rest, rfl, -⟩
    exact List.prefix_append needle rest
  . rintro ⟨rest, rfl⟩
    exact ⟨rest, rfl, like_percent_nil rest⟩

end Like

end Sql
