import Mathlib.Data.List.Basic
import Mathlib.Data.List.Infix

/-!
This module contains texts that are made of pieces, when their pieces can be told apart, and what a search in lists of
items finds that are written with marks around them and between them.
-/

namespace Unambiguous

variable {α β : Type} {stop sep : β}

/--
No code is the beginning of another one.
-/
def PrefixFree (enc : α → List β) : Prop := ∀ a b, enc a <+: enc b → a = b

theorem PrefixFree.append_inj {enc : α → List β} (h : PrefixFree enc) {a b : α} {x y : List β}
    (heq : enc a ++ x = enc b ++ y) : a = b ∧ x = y := by
  have hab : a = b := by
    rcases List.prefix_or_prefix_of_prefix (List.prefix_append (enc a) x) (heq ▸ List.prefix_append (enc b) y) with
      hbegins | hbegins
    . exact h a b hbegins
    . exact (h b a hbegins).symm
  rw [hab] at heq
  exact ⟨hab, List.append_cancel_left heq⟩

theorem PrefixFree.flatMap_inj {enc : α → List β} (h : PrefixFree enc)
    (hhead : ∀ a, ∃ b rest, enc a = b :: rest ∧ b ≠ stop) {as bs : List α} {x y : List β}
    (heq : as.flatMap enc ++ stop :: x = bs.flatMap enc ++ stop :: y) : as = bs ∧ x = y := by
  induction as generalizing bs with
  | nil =>
    cases bs with
    | nil => exact ⟨rfl, (List.cons.inj heq).2⟩
    | cons b bs =>
      obtain ⟨c, rest, henc, hc⟩ := hhead b
      rw [List.flatMap_cons, henc] at heq
      exact absurd (List.cons.inj heq).1.symm hc
  | cons a as ih =>
    cases bs with
    | nil =>
      obtain ⟨c, rest, henc, hc⟩ := hhead a
      rw [List.flatMap_cons, henc] at heq
      exact absurd (List.cons.inj heq).1 hc
    | cons b bs =>
      rw [List.flatMap_cons, List.flatMap_cons, List.append_assoc, List.append_assoc] at heq
      obtain ⟨rfl, hrest⟩ := h.append_inj heq
      obtain ⟨rfl, hxy⟩ := ih hrest
      exact ⟨rfl, hxy⟩

/--
Where a piece of one kind ends when it is compared with one of another kind can be told from what follows it, as
long as that satisfies `E`.
-/
def Delimits (P Q E : List β → Prop) : Prop :=
  ∀ p q x y, P p → Q q → E x → E y → p ++ x = q ++ y → p = q ∧ x = y

theorem intercalate_cons_append (p : List β) (ps : List (List β)) (x : List β)
    : [sep].intercalate (p :: ps) ++ stop :: x
        = p ++ if ps = [] then stop :: x else sep :: ([sep].intercalate ps ++ stop :: x) := by
  cases ps with
  | nil => simp
  | cons q qs =>
    rw [if_neg (List.cons_ne_nil q qs), List.intercalate_cons_cons]
    simp

theorem Delimits.intercalate_inj {P Q E : List β → Prop} (h : Delimits P Q E) (stop : β)
    (hhead : ∀ p, P p ∨ Q p → ∃ b rest, p = b :: rest ∧ b ≠ stop) (hsep : ∀ x, E (sep :: x))
    (hstop : ∀ x, E (stop :: x)) (hne : sep ≠ stop) {ps qs : List (List β)} (hps : ∀ p ∈ ps, P p)
    (hqs : ∀ q ∈ qs, Q q) {x y : List β}
    (heq : [sep].intercalate ps ++ stop :: x = [sep].intercalate qs ++ stop :: y) : ps = qs ∧ x = y := by
  have hcons (p : List β) (hp : P p ∨ Q p) (ps : List (List β)) (x y : List β)
      : [sep].intercalate (p :: ps) ++ stop :: x ≠ stop :: y := by
    obtain ⟨b, rest, rfl, hb⟩ := hhead p hp
    rw [intercalate_cons_append]
    exact fun heq => hb (List.cons.inj heq).1
  induction ps generalizing qs with
  | nil =>
    cases qs with
    | nil => exact ⟨rfl, (List.cons.inj heq).2⟩
    | cons q qs => exact absurd heq.symm (hcons q (.inr (hqs q (.head _))) qs y x)
  | cons p ps ih =>
    cases qs with
    | nil => exact absurd heq (hcons p (.inl (hps p (.head _))) ps x y)
    | cons q qs =>
      rw [intercalate_cons_append, intercalate_cons_append] at heq
      have hends (ps : List (List β)) (x : List β)
          : E (if ps = [] then stop :: x else sep :: ([sep].intercalate ps ++ stop :: x)) := by
        split
        . exact hstop _
        . exact hsep _
      obtain ⟨rfl, hrest⟩ := h p q _ _ (hps p (.head _)) (hqs q (.head _)) (hends ps x) (hends qs y) heq
      by_cases hempty : ps = []
      . by_cases hempty' : qs = []
        . rw [if_pos hempty, if_pos hempty'] at hrest
          exact ⟨by rw [hempty, hempty'], (List.cons.inj hrest).2⟩
        . rw [if_pos hempty, if_neg hempty'] at hrest
          exact absurd (List.cons.inj hrest).1.symm hne
      . by_cases hempty' : qs = []
        . rw [if_neg hempty, if_pos hempty'] at hrest
          exact absurd (List.cons.inj hrest).1 hne
        . rw [if_neg hempty, if_neg hempty'] at hrest
          obtain ⟨rfl, hxy⟩ := ih (fun p hp => hps p (.tail _ hp)) (fun q hq => hqs q (.tail _ hq))
            (List.cons.inj hrest).2
          exact ⟨rfl, hxy⟩

end Unambiguous

namespace Separators

variable {α : Type}

/--
Items in quotes, with commas between them, in brackets.
-/
def enclosed (opening closing comma quote : α) (items : List (List α)) : List α :=
  opening :: ([comma].intercalate (items.map fun item => quote :: (item ++ [quote])) ++ [closing])

theorem mem_enclosed {opening closing comma quote a : α} {items : List (List α)}
    (h : a ∈ enclosed opening closing comma quote items)
    : a ∈ [opening, closing, comma, quote] ∨ ∃ item ∈ items, a ∈ item := by
  rw [enclosed, List.mem_cons, List.mem_append, List.mem_singleton] at h
  rcases h with rfl | h | rfl
  . exact .inl List.mem_cons_self
  . induction items with
    | nil => exact absurd h List.not_mem_nil
    | cons item items ih =>
      have hquoted : a ∈ quote :: (item ++ [quote]) →
          a ∈ [opening, closing, comma, quote] ∨ ∃ item' ∈ item :: items, a ∈ item' := by
        intro hmem
        rcases List.mem_cons.1 hmem with rfl | hmem
        . exact .inl (by simp)
        rcases List.mem_append.1 hmem with hmem | hmem
        . exact .inr ⟨item, List.mem_cons_self, hmem⟩
        . exact .inl (by simp [List.mem_singleton.1 hmem])
      cases items with
      | nil =>
        rw [List.map_cons, List.map_nil, List.intercalate_singleton] at h
        exact hquoted h
      | cons item' items =>
        rw [List.map_cons, List.map_cons, List.intercalate_cons_cons, List.append_assoc, List.mem_append, List.mem_append,
          List.mem_singleton] at h
        rcases h with h | rfl | h
        . exact hquoted h
        . exact .inl (by simp)
        . rcases ih h with hmark | ⟨item'', hmem, ha⟩
          . exact .inl hmark
          . exact .inr ⟨item'', List.mem_cons_of_mem item hmem, ha⟩
  . exact .inl (by simp)

theorem infix_enclosed_of_mem {opening closing comma quote : α} {items : List (List α)} {item : List α}
    (h : item ∈ items) : item <:+: enclosed opening closing comma quote items := by
  have hquoted (item : List α) : item <:+: quote :: (item ++ [quote]) := ⟨[quote], [quote], by simp⟩
  suffices hitems : item <:+: [comma].intercalate (items.map fun item => quote :: (item ++ [quote])) from
    hitems.trans ⟨[opening], [closing], by simp [enclosed]⟩
  induction items with
  | nil => exact absurd h List.not_mem_nil
  | cons first items ih =>
    cases items with
    | nil =>
      obtain rfl := List.mem_singleton.1 h
      rw [List.map_cons, List.map_nil, List.intercalate_singleton]
      exact hquoted item
    | cons second items =>
      rw [List.map_cons, List.map_cons, List.intercalate_cons_cons]
      rcases List.mem_cons.1 h with rfl | h
      . rw [List.append_assoc]
        exact (hquoted item).trans (List.prefix_append _ _).isInfix
      . exact (ih h).trans (List.suffix_append _ _).isInfix

section Search

variable {needle before after : List α} {c : α}

theorem infix_nil_iff (hne : needle ≠ []) : needle <:+: [] ↔ False :=
  iff_of_false (fun h => hne (List.eq_nil_of_infix_nil h)) id

theorem prefix_append_cons_iff (h : c ∉ needle) : needle <+: before ++ c :: after ↔ needle <+: before := by
  constructor
  . rintro ⟨rest, hrest⟩
    obtain ⟨between, rfl, -⟩ | ⟨between, rfl, hbetween⟩ := List.append_eq_append_iff.1 hrest
    . exact List.prefix_append needle between
    . cases between with
      | nil => exact ⟨[], by rw [List.append_nil, List.append_nil]⟩
      | cons d between =>
        obtain rfl : c = d := (List.cons.inj hbetween).1
        exact absurd (List.mem_append_right before List.mem_cons_self) h
  . exact fun hbegins => hbegins.trans (List.prefix_append _ _)

theorem infix_append_cons_iff (h : c ∉ needle)
    : needle <:+: before ++ c :: after ↔ needle <:+: before ∨ needle <:+: after := by
  induction before with
  | nil =>
    rw [List.nil_append, List.infix_cons_iff]
    have hbegins := @prefix_append_cons_iff _ needle [] after c h
    rw [List.nil_append, List.prefix_nil] at hbegins
    rw [hbegins, List.infix_nil]
  | cons d before ih =>
    rw [List.cons_append, List.infix_cons_iff, List.infix_cons_iff, ih, ← List.cons_append, prefix_append_cons_iff h,
      or_assoc]

theorem infix_cons_iff_of_not_mem (h : c ∉ needle) (hne : needle ≠ []) : needle <:+: c :: after ↔ needle <:+: after := by
  have hsplit := @infix_append_cons_iff _ needle [] after c h
  rw [infix_nil_iff hne, false_or] at hsplit
  exact hsplit

theorem infix_quoted_iff {quote : α} {item : List α} (h : quote ∉ needle) (hne : needle ≠ [])
    : needle <:+: quote :: (item ++ quote :: after) ↔ needle <:+: item ∨ needle <:+: after := by
  rw [infix_cons_iff_of_not_mem h hne, infix_append_cons_iff h]

theorem infix_enclosed_iff {opening closing comma quote : α} {items : List (List α)} (hne : needle ≠ [])
    (hopening : opening ∉ needle) (hclosing : closing ∉ needle) (hcomma : comma ∉ needle) (hquote : quote ∉ needle)
    : needle <:+: enclosed opening closing comma quote items ↔ ∃ item ∈ items, needle <:+: item := by
  rw [enclosed, infix_cons_iff_of_not_mem hopening hne, infix_append_cons_iff hclosing, infix_nil_iff hne, or_false]
  induction items with
  | nil => simp [infix_nil_iff hne]
  | cons item items ih =>
    simp only [List.map_cons, List.mem_cons, exists_eq_or_imp]
    rw [← ih]
    cases items with
    | nil =>
      rw [List.map_nil, List.intercalate_singleton, List.intercalate_nil]
      exact @infix_quoted_iff _ needle [] _ item hquote hne
    | cons item' items =>
      rw [List.map_cons, List.intercalate_cons_cons]
      generalize [comma].intercalate ((quote :: (item' ++ [quote])) :: _) = rest
      have hmarks : quote :: (item ++ [quote]) ++ [comma] ++ rest = quote :: (item ++ quote :: comma :: rest) := by simp
      rw [hmarks, infix_quoted_iff hquote hne, infix_cons_iff_of_not_mem hcomma hne]

end Search

end Separators
