import Mathlib.Data.List.Infix

/-!
This module contains the replacement of every occurrence of a text by another one, and what a sequence of replacements
makes of a text in which some characters are written as codes.
-/

namespace Replacement

variable {α : Type}

section Single

variable [DecidableEq α]

/--
Write `piece` in place of every occurrence of `pat`, which is not empty, from left to right. The first `skip` items
belong to the occurrence before.
-/
def replaceFrom (pat piece : List α) : Nat → List α → List α
  | _, [] => []
  | skip + 1, _ :: cs => replaceFrom pat piece skip cs
  | 0, c :: cs =>
    if pat.isPrefixOf (c :: cs) then
      piece ++ replaceFrom pat piece (pat.length - 1) cs
    else
      c :: replaceFrom pat piece 0 cs

def replaceAll (pat piece cs : List α) : List α := replaceFrom pat piece 0 cs

variable {pat piece cs : List α} {c : α}

theorem replaceFrom_eq (skip : Nat) (cs : List α)
    : replaceFrom pat piece skip cs = replaceAll pat piece (cs.drop skip) := by
  induction cs generalizing skip with
  | nil => cases skip <;> rfl
  | cons c cs ih =>
    cases skip with
    | zero => rfl
    | succ skip => apply ih

theorem replaceAll_append (hne : pat ≠ []) (cs : List α)
    : replaceAll pat piece (pat ++ cs) = piece ++ replaceAll pat piece cs := by
  cases pat with
  | nil => contradiction
  | cons first tail =>
    have hbegins : (first :: tail).isPrefixOf (first :: (tail ++ cs)) = true := by
      rw [List.isPrefixOf_iff_prefix]
      apply List.prefix_append (first :: tail)
    rw [List.cons_append, replaceAll, replaceFrom, if_pos hbegins, replaceFrom_eq]
    simp

theorem replaceAll_cons (h : ¬ pat <+: c :: cs) : replaceAll pat piece (c :: cs) = c :: replaceAll pat piece cs := by
  rw [← List.isPrefixOf_iff_prefix] at h
  rw [replaceAll, replaceFrom, if_neg h, replaceAll]

@[elab_as_elim]
theorem text_induction (hne : pat ≠ []) {motive : List α → Prop} (nil : motive [])
    (occurs : ∀ cs, motive cs → motive (pat ++ cs))
    (other : ∀ c cs, ¬ pat <+: c :: cs → motive cs → motive (c :: cs)) (cs : List α) : motive cs := by
  induction hlength : cs.length using Nat.strong_induction_on generalizing cs with
  | _ n ih =>
    by_cases hbegins : pat <+: cs
    . obtain ⟨rest, rfl⟩ := hbegins
      have hpos := List.length_pos_iff.2 hne
      rw [List.length_append] at hlength
      apply occurs
      apply ih rest.length
      . omega
      . rfl
    . cases cs with
      | nil => apply nil
      | cons c cs =>
        rw [List.length_cons] at hlength
        apply other c cs hbegins
        apply ih cs.length
        . omega
        . rfl

theorem replaceAll_eq_self (h : ¬ pat <:+: cs) : replaceAll pat piece cs = cs := by
  induction cs with
  | nil => rfl
  | cons c cs ih =>
    rw [List.infix_cons_iff, not_or] at h
    rw [replaceAll_cons h.1, ih h.2]

theorem length_replaceAll_le (hne : pat ≠ []) (hshort : piece.length ≤ pat.length) (cs : List α)
    : (replaceAll pat piece cs).length ≤ cs.length := by
  induction cs using text_induction hne with
  | nil => simp [replaceAll, replaceFrom]
  | occurs cs ih =>
    rw [replaceAll_append hne, List.length_append, List.length_append]
    omega
  | other c cs hnot ih =>
    rw [replaceAll_cons hnot, List.length_cons, List.length_cons]
    omega

theorem length_replaceAll_lt (hne : pat ≠ []) (hshort : piece.length < pat.length) (h : pat <:+: cs)
    : (replaceAll pat piece cs).length < cs.length := by
  induction cs using text_induction hne with
  | nil => simp [hne] at h
  | occurs cs ih =>
    have := length_replaceAll_le hne (Nat.le_of_lt hshort) cs
    rw [replaceAll_append hne, List.length_append, List.length_append]
    omega
  | other c cs hnot ih =>
    rw [List.infix_cons_iff] at h
    specialize ih (h.resolve_left hnot)
    rw [replaceAll_cons hnot, List.length_cons, List.length_cons]
    omega

theorem replaceAll_append_of_not_mem {mark : α} {tail xs : List α} (h : mark ∉ xs) (cs : List α)
    : replaceAll (mark :: tail) piece (xs ++ cs) = xs ++ replaceAll (mark :: tail) piece cs := by
  induction xs with
  | nil => rfl
  | cons x xs ih =>
    rw [List.mem_cons, not_or] at h
    have hnot : ¬ mark :: tail <+: x :: (xs ++ cs) := by
      rw [List.cons_prefix_cons]
      intro hbegins
      apply h.1 hbegins.1
    rw [List.cons_append, replaceAll_cons hnot, ih h.2, List.cons_append]

end Single

section Sequence

variable {table : List (List α × List α)} {e : List α × List α}

/--
What is written is shorter than what it is written for.
-/
def Shortens (table : List (List α × List α)) : Prop := ∀ e ∈ table, e.2.length < e.1.length

theorem Shortens.ne_nil (h : Shortens table) (he : e ∈ table) : e.1 ≠ [] := by
  have hlt := h e he
  apply List.length_pos_iff.1
  omega

variable [DecidableEq α]

/--
One replacement after another, each on all of the text.
-/
def replaceEach (table : List (List α × List α)) (cs : List α) : List α :=
  table.foldl (fun cs e => replaceAll e.1 e.2 cs) cs

theorem replaceEach_cons (e : List α × List α) (table : List (List α × List α)) (cs : List α)
    : replaceEach (e :: table) cs = replaceEach table (replaceAll e.1 e.2 cs) := rfl

theorem Shortens.length_replaceEach_le (h : Shortens table) (cs : List α)
    : (replaceEach table cs).length ≤ cs.length := by
  induction table generalizing cs with
  | nil => apply Nat.le_refl
  | cons e table ih =>
    have hfirst := length_replaceAll_le (h.ne_nil (.head _)) (Nat.le_of_lt (h e (.head _))) cs
    have hrest := ih (fun e he => h e (.tail _ he)) (replaceAll e.1 e.2 cs)
    rw [replaceEach_cons]
    omega

theorem Shortens.replaceEach_eq_self_iff (h : Shortens table) {cs : List α}
    : replaceEach table cs = cs ↔ ∀ e ∈ table, ¬ e.1 <:+: cs := by
  induction table with
  | nil => simp [replaceEach]
  | cons e table ih =>
    have hrest : Shortens table := fun e he => h e (.tail _ he)
    rw [List.forall_mem_cons, replaceEach_cons]
    by_cases hoccurs : e.1 <:+: cs
    . constructor
      . intro hsame
        have hfirst := length_replaceAll_lt (h.ne_nil (.head _)) (h e (.head _)) hoccurs
        have hle := hrest.length_replaceEach_le (replaceAll e.1 e.2 cs)
        rw [hsame] at hle
        omega
      . intro hnone
        apply absurd hoccurs hnone.1
    . rw [replaceAll_eq_self hoccurs, ih hrest]
      simp [hoccurs]

end Sequence

section Coding

variable {mark c : α} {table : List (List α × List α)} {e : List α × List α} {piece tail cs : List α}

/--
The codes of a table stand for one item each, and can be told apart and from the items: every code begins with the
mark and has no other one in it, none is the beginning of another, and no item of a code has a code itself.
-/
structure Codes (mark : α) (table : List (List α × List α)) : Prop where
  marked : ∀ e ∈ table, e.1.head? = some mark ∧ mark ∉ e.1.tail
  single : ∀ e ∈ table, e.2.length = 1
  plain : ∀ e ∈ table, ∀ e' ∈ table, ∀ c ∈ e.1, e'.2 ≠ [c]
  apart : table.Pairwise fun e e' => e.2 ≠ e'.2 ∧ ¬ e.1 <+: e'.1 ∧ ¬ e'.1 <+: e.1

theorem Codes.of_cons (h : Codes mark (e :: table)) : Codes mark table where
  marked e he := h.marked e (.tail _ he)
  single e he := h.single e (.tail _ he)
  plain e he e' he' := h.plain e (.tail _ he) e' (.tail _ he')
  apart := (List.pairwise_cons.1 h.apart).2

theorem Codes.exists_eq_cons (h : Codes mark table) (he : e ∈ table) : ∃ tail, e.1 = mark :: tail ∧ mark ∉ tail := by
  obtain ⟨hhead, htail⟩ := h.marked e he
  obtain ⟨tail, hcode⟩ := List.head?_eq_some_iff.1 hhead
  rw [hcode] at htail
  exact ⟨tail, hcode, htail⟩

variable [DecidableEq α]

instance (mark : α) (table : List (List α × List α)) : Decidable (Codes mark table) :=
  decidable_of_iff ((∀ e ∈ table, e.1.head? = some mark ∧ mark ∉ e.1.tail) ∧ (∀ e ∈ table, e.2.length = 1)
      ∧ (∀ e ∈ table, ∀ e' ∈ table, ∀ c ∈ e.1, e'.2 ≠ [c])
      ∧ table.Pairwise fun e e' => e.2 ≠ e'.2 ∧ ¬ e.1 <+: e'.1 ∧ ¬ e'.1 <+: e.1)
    ⟨fun ⟨hmarked, hsingle, hplain, hapart⟩ => ⟨hmarked, hsingle, hplain, hapart⟩,
      fun h => ⟨h.marked, h.single, h.plain, h.apart⟩⟩

/--
How an item is written: with the code that the table has for it, or as it is.
-/
def codeOf : List (List α × List α) → α → List α
  | [], c => [c]
  | (pat, piece) :: table, c => if piece = [c] then pat else codeOf table c

theorem codeOf_of_forall_ne (h : ∀ e ∈ table, e.2 ≠ [c]) : codeOf table c = [c] := by
  induction table with
  | nil => rfl
  | cons e table ih =>
    rw [List.forall_mem_cons] at h
    rw [codeOf, if_neg h.1, ih h.2]

theorem codeOf_cases (table : List (List α × List α)) (c : α)
    : codeOf table c = [c] ∨ ∃ e ∈ table, codeOf table c = e.1 := by
  induction table with
  | nil => left; rfl
  | cons e table ih =>
    rw [codeOf]
    split
    . right
      exact ⟨e, .head _, rfl⟩
    . cases ih with
      | inl hself =>
        left
        assumption
      | inr hcode =>
        right
        obtain ⟨e', he, heq⟩ := hcode
        exact ⟨e', .tail _ he, heq⟩

theorem flatMap_codeOf_eq_self (h : ∀ c ∈ cs, ∀ e ∈ table, e.2 ≠ [c]) : cs.flatMap (codeOf table) = cs := by
  induction cs with
  | nil => rfl
  | cons c cs ih =>
    rw [List.forall_mem_cons] at h
    rw [List.flatMap_cons, codeOf_of_forall_ne h.1, ih h.2, List.singleton_append]

namespace Codes

theorem prefix_of_prefix_flatMap (h : Codes mark table) {xs : List α} (hmark : mark ∉ xs)
    (hbegins : xs <+: cs.flatMap (codeOf table)) : xs <+: cs := by
  induction xs generalizing cs with
  | nil => apply List.nil_prefix
  | cons x xs ih =>
    rw [List.mem_cons, not_or] at hmark
    cases cs with
    | nil => apply hbegins
    | cons c cs =>
      rw [List.flatMap_cons] at hbegins
      cases codeOf_cases table c with
      | inl hcode =>
        rw [hcode, List.singleton_append, List.cons_prefix_cons] at hbegins
        rw [List.cons_prefix_cons]
        exact ⟨hbegins.1, ih hmark.2 hbegins.2⟩
      | inr hcode =>
        obtain ⟨e, he, hcode⟩ := hcode
        obtain ⟨tail, htail, -⟩ := h.exists_eq_cons he
        rw [hcode, htail, List.cons_append, List.cons_prefix_cons] at hbegins
        apply absurd hbegins.1.symm hmark.1

theorem replaceAll_codeOf_append (h : Codes mark table)
    (hapart : ∀ e ∈ table, ¬ mark :: tail <+: e.1 ∧ ¬ e.1 <+: mark :: tail) (hplain : ¬ mark :: tail <+: c :: cs)
    : replaceAll (mark :: tail) piece (codeOf table c ++ cs)
        = codeOf table c ++ replaceAll (mark :: tail) piece cs := by
  cases codeOf_cases table c with
  | inl hcode => rw [hcode, List.singleton_append, replaceAll_cons hplain, List.singleton_append]
  | inr hcode =>
    obtain ⟨e, he, hcode⟩ := hcode
    obtain ⟨rest, hrest, hmark⟩ := h.exists_eq_cons he
    have hother : ¬ mark :: tail <+: mark :: (rest ++ cs) := by
      rw [← List.cons_append, ← hrest]
      intro hbegins
      cases List.prefix_or_prefix_of_prefix hbegins (List.prefix_append e.1 cs) with
      | inl hprefix => apply (hapart e he).1 hprefix
      | inr hprefix => apply (hapart e he).2 hprefix
    rw [hcode, hrest, List.cons_append, replaceAll_cons hother, replaceAll_append_of_not_mem hmark, List.cons_append]

theorem replaceAll_flatMap (h : Codes mark (e :: table)) (cs : List α)
    : replaceAll e.1 e.2 (cs.flatMap (codeOf (e :: table))) = (replaceAll e.1 e.2 cs).flatMap (codeOf table) := by
  obtain ⟨tail, htail, hmark⟩ := h.exists_eq_cons (.head _)
  obtain ⟨hfirst, -⟩ := List.pairwise_cons.1 h.apart
  have hne : e.1 ≠ [] := by simp [htail]
  have hpiece : ∀ c, e.2 = [c] → codeOf table c = [c] := by
    intro c hc
    apply codeOf_of_forall_ne
    intro e' he' hcode
    apply (hfirst e' he').1
    rw [hc, hcode]
  induction cs using text_induction hne with
  | nil => rfl
  | occurs cs ih =>
    have hpat : e.1.flatMap (codeOf (e :: table)) = e.1 := by
      apply flatMap_codeOf_eq_self
      intro c hc e' he'
      apply h.plain e (.head _) e' he' c hc
    have hcode : e.2.flatMap (codeOf table) = e.2 := by
      obtain ⟨c, hc⟩ := List.length_eq_one_iff.1 (h.single e (.head _))
      rw [hc, List.flatMap_singleton, hpiece c hc]
    rw [List.flatMap_append, hpat, replaceAll_append hne, replaceAll_append hne, List.flatMap_append, hcode, ih]
  | other c cs hnot ih =>
    rw [List.flatMap_cons, replaceAll_cons hnot, List.flatMap_cons, ← ih, codeOf]
    split
    next hc => rw [replaceAll_append hne, hpiece c hc, hc]
    next =>
      rw [htail] at hfirst hnot ⊢
      apply h.of_cons.replaceAll_codeOf_append
      . intro e' he'
        apply (hfirst e' he').2
      . -- What follows the mark is plain, so it stood there before the coding.
        intro hbegins
        rw [List.cons_prefix_cons] at hbegins hnot
        apply hnot
        exact ⟨hbegins.1, h.prefix_of_prefix_flatMap hmark hbegins.2⟩

theorem replaceEach_flatMap (h : Codes mark table) (others : List (List α × List α)) (cs : List α)
    : replaceEach (table ++ others) (cs.flatMap (codeOf table)) = replaceEach (table ++ others) cs := by
  induction table generalizing cs with
  | nil =>
    have hself : cs.flatMap (codeOf []) = cs := by
      apply flatMap_codeOf_eq_self
      simp
    rw [hself]
  | cons e table ih =>
    rw [List.cons_append, replaceEach_cons, replaceEach_cons, h.replaceAll_flatMap]
    apply ih h.of_cons

theorem replaceAll_mark (h : Codes mark table)
    (hapart : ∀ e ∈ table, ¬ mark :: tail <+: e.1 ∧ ¬ e.1 <+: mark :: tail) (cs : List α)
    : replaceAll (mark :: tail) [mark] (cs.flatMap (codeOf ((mark :: tail, [mark]) :: table)))
        = cs.flatMap (codeOf table) := by
  have hmark : codeOf table mark = [mark] := by
    apply codeOf_of_forall_ne
    intro e he
    obtain ⟨rest, hrest, -⟩ := h.exists_eq_cons he
    apply h.plain e he e he mark
    simp [hrest]
  induction cs with
  | nil => rfl
  | cons c cs ih =>
    rw [List.flatMap_cons, List.flatMap_cons, codeOf]
    split
    next hc =>
      obtain rfl : mark = c := List.singleton_inj.1 hc
      rw [replaceAll_append (List.cons_ne_nil _ _), ih, hmark]
    next hne =>
      rw [h.replaceAll_codeOf_append hapart, ih]
      intro hbegins
      apply hne
      rw [(List.cons_prefix_cons.1 hbegins).1]

end Codes

end Coding

end Replacement
