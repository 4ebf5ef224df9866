import Mathlib.Data.List.Forall2
import Mathlib.Data.List.Infix
import Mathlib.Order.Bounds.Basic
import Mathlib.Order.MinMax

/-!
This module contains the edits that lead from one list to another, the least number of them, and the table that
computes it row by row; and the single edits of a list, the least number of which is that distance.
-/

variable {α : Type}

/--
One list becomes the other by so many replacements, deletions and insertions.
-/
inductive Edits : List α → List α → Nat → Prop where
  | nil : Edits [] [] 0
  | keep {xs ys : List α} {n : Nat} (a : α) (rest : Edits xs ys n) : Edits (a :: xs) (a :: ys) n
  | replace {xs ys : List α} {n : Nat} (a b : α) (rest : Edits xs ys n) : Edits (a :: xs) (b :: ys) (n + 1)
  | delete {xs ys : List α} {n : Nat} (a : α) (rest : Edits xs ys n) : Edits (a :: xs) ys (n + 1)
  | insert {xs ys : List α} {n : Nat} (b : α) (rest : Edits xs ys n) : Edits xs (b :: ys) (n + 1)

/--
The least number of edits.
-/
def EditDistance (xs ys : List α) (d : Nat) : Prop := IsLeast {n | Edits xs ys n} d

namespace Edits

variable {xs ys xs' ys' : List α} {n m : Nat} {a b : α}

theorem append (h : Edits xs ys n) (h' : Edits xs' ys' m) : Edits (xs ++ xs') (ys ++ ys') (n + m) := by
  induction h with
  | nil => rwa [Nat.zero_add]
  | keep a rest ih => exact .keep a ih
  | replace a b rest ih =>
    rw [Nat.succ_add]
    exact .replace a b ih
  | delete a rest ih =>
    rw [Nat.succ_add]
    exact .delete a ih
  | insert b rest ih =>
    rw [Nat.succ_add]
    exact .insert b ih

theorem reverse (h : Edits xs ys n) : Edits xs.reverse ys.reverse n := by
  induction h with
  | nil => exact .nil
  | keep a rest ih =>
    rw [List.reverse_cons, List.reverse_cons]
    exact ih.append (.keep a .nil)
  | replace a b rest ih =>
    rw [List.reverse_cons, List.reverse_cons]
    exact ih.append (.replace a b .nil)
  | delete a rest ih =>
    have hlast := ih.append (.delete a .nil)
    rwa [List.append_nil, ← List.reverse_cons] at hlast
  | insert b rest ih =>
    have hlast := ih.append (.insert b .nil)
    rwa [List.append_nil, ← List.reverse_cons] at hlast

theorem length_le (h : Edits xs ys n) : ys.length ≤ xs.length + n ∧ xs.length ≤ ys.length + n := by
  induction h with
  | nil => exact ⟨Nat.le_refl _, Nat.le_refl _⟩
  | _ => simp only [List.length_cons]; omega

theorem of_nil (ys : List α) : Edits [] ys ys.length := by
  induction ys with
  | nil => exact .nil
  | cons b ys ih => exact .insert b ih

theorem to_nil (xs : List α) : Edits xs [] xs.length := by
  induction xs with
  | nil => exact .nil
  | cons a xs ih => exact .delete a ih

theorem concat_cases (h : Edits (xs ++ [a]) (ys ++ [b]) n)
    : (a = b ∧ Edits xs ys n) ∨ ∃ m, n = m + 1
        ∧ (Edits xs ys m ∨ Edits xs (ys ++ [b]) m ∨ Edits (xs ++ [a]) ys m) := by
  have hreverse := h.reverse
  rw [List.reverse_concat, List.reverse_concat] at hreverse
  have hback {us vs : List α} {k : Nat} (h : Edits us.reverse vs.reverse k) : Edits us vs k := by
    have h := h.reverse
    rwa [List.reverse_reverse, List.reverse_reverse] at h
  cases hreverse with
  | keep _ rest => exact .inl ⟨rfl, hback rest⟩
  | replace _ _ rest => exact .inr ⟨_, rfl, .inl (hback rest)⟩
  | delete _ rest =>
    rw [← List.reverse_concat] at rest
    exact .inr ⟨_, rfl, .inr (.inl (hback rest))⟩
  | insert _ rest =>
    rw [← List.reverse_concat] at rest
    exact .inr ⟨_, rfl, .inr (.inr (hback rest))⟩

end Edits

namespace EditDistance

variable {xs ys : List α} {a b : α}

theorem nil_left (ys : List α) : EditDistance [] ys ys.length :=
  ⟨.of_nil ys, fun _ h => by simpa using h.length_le.1⟩

theorem nil_right (xs : List α) : EditDistance xs [] xs.length :=
  ⟨.to_nil xs, fun _ h => by simpa using h.length_le.2⟩

theorem concat [DecidableEq α] {above left diagonal : Nat} (habove : EditDistance xs (ys ++ [b]) above)
    (hleft : EditDistance (xs ++ [a]) ys left) (hdiagonal : EditDistance xs ys diagonal)
    : EditDistance (xs ++ [a]) (ys ++ [b])
        (min (min (above + 1) (left + 1)) (diagonal + if a = b then 0 else 1)) := by
  have hdelete := habove.1.append (.delete a .nil)
  have hinsert := hleft.1.append (.insert b .nil)
  rw [List.append_nil] at hdelete hinsert
  have hlast : Edits (xs ++ [a]) (ys ++ [b]) (diagonal + if a = b then 0 else 1) := by
    split
    next heq =>
      obtain rfl : a = b := heq
      exact hdiagonal.1.append (.keep a .nil)
    next => exact hdiagonal.1.append (.replace a b .nil)
  constructor
  . show Edits _ _ _
    rcases min_choice (min (above + 1) (left + 1)) (diagonal + if a = b then 0 else 1) with heq | heq
    . rw [heq]
      rcases min_choice (above + 1) (left + 1) with heq | heq
      . rwa [heq]
      . rwa [heq]
    . rwa [heq]
  . intro n hn
    rcases Edits.concat_cases hn with ⟨heq, h⟩ | ⟨m, rfl, h | h | h⟩
    . rw [if_pos heq]
      exact Nat.le_trans (Nat.min_le_right _ _) (hdiagonal.2 h)
    . have hle := hdiagonal.2 h
      split <;> omega
    . have hle := habove.2 h
      omega
    . have hle := hleft.2 h
      omega

/--
The distances of a list from the beginnings of another one, as far as these begin with `front`.
-/
def Row (xs front ys : List α) (row : List Nat) : Prop :=
  List.Forall₂ (fun rest d => EditDistance xs (front ++ rest) d) ys.inits row

variable {front : List α} {row : List Nat}

theorem row_cons_iff {b : α}
    : Row xs front (b :: ys) row
        ↔ ∃ d rest, row = d :: rest ∧ EditDistance xs front d ∧ Row xs (front ++ [b]) ys rest := by
  rw [Row, List.inits_cons, List.forall₂_cons_left_iff]
  simp only [List.append_nil, List.forall₂_map_left_iff, Row, List.append_assoc, List.singleton_append]
  constructor
  . rintro ⟨d, rest, hd, hrest, rfl⟩
    exact ⟨d, rest, rfl, hd, hrest⟩
  . rintro ⟨d, rest, rfl, hd, hrest⟩
    exact ⟨d, rest, hd, hrest, rfl⟩

theorem Row.exists_cons (h : Row xs front ys row) : ∃ d rest, row = d :: rest ∧ EditDistance xs front d := by
  cases ys with
  | nil =>
    obtain ⟨d, rest, hd, -, rfl⟩ := List.forall₂_cons_left_iff.1 h
    rw [List.append_nil] at hd
    exact ⟨d, rest, rfl, hd⟩
  | cons b ys =>
    obtain ⟨d, rest, rfl, hd, -⟩ := row_cons_iff.1 h
    exact ⟨d, rest, rfl, hd⟩

theorem row_nil (front ys : List α) : Row [] front ys (List.range' front.length (ys.length + 1)) := by
  induction ys generalizing front with
  | nil => exact .cons (by rw [List.append_nil]; exact nil_left front) .nil
  | cons b ys ih =>
    refine row_cons_iff.2 ⟨front.length, _, rfl, nil_left front, ?_⟩
    have hrest := ih (front ++ [b])
    rwa [List.length_append] at hrest

theorem Row.exists_getElem? (h : Row xs front ys row)
    : ∃ d, row[ys.length]? = some d ∧ EditDistance xs (front ++ ys) d := by
  induction ys generalizing front row with
  | nil =>
    obtain ⟨d, rest, rfl, hd⟩ := h.exists_cons
    rw [List.append_nil]
    exact ⟨d, rfl, hd⟩
  | cons b ys ih =>
    obtain ⟨d, rest, rfl, -, hrest⟩ := row_cons_iff.1 h
    obtain ⟨d', hget, hd'⟩ := ih hrest
    rw [List.append_assoc] at hd'
    exact ⟨d', hget, hd'⟩

section Table

variable [DecidableEq α]

/--
One row of the table behind its first entry, from the row above it.
-/
def nextRow (a : α) : List α → List Nat → Nat → List Nat
  | b :: ys, diagonal :: above :: row, left =>
    let value := min (min (above + 1) (left + 1)) (diagonal + if a = b then 0 else 1)
    value :: nextRow a ys (above :: row) value
  | _, _, _ => []

def finalRow (ys : List α) : List α → Nat → List Nat → List Nat
  | [], _, row => row
  | a :: xs, i, row => finalRow ys xs (i + 1) ((i + 1) :: nextRow a ys row (i + 1))

theorem Row.next {left : Nat} (h : Row xs front ys row) (hleft : EditDistance (xs ++ [a]) front left)
    : Row (xs ++ [a]) front ys (left :: nextRow a ys row left) := by
  induction ys generalizing front row left with
  | nil =>
    refine .cons ?_ ?_
    . rwa [List.append_nil]
    . cases row <;> exact .nil
  | cons b ys ih =>
    obtain ⟨diagonal, rest, rfl, hdiagonal, hrest⟩ := row_cons_iff.1 h
    obtain ⟨above, rest', rfl, habove⟩ := hrest.exists_cons
    exact row_cons_iff.2 ⟨left, _, rfl, hleft, ih hrest (habove.concat hleft hdiagonal)⟩

theorem Row.last {zs : List α} (h : Row xs [] ys row) : Row (xs ++ zs) [] ys (finalRow ys zs xs.length row) := by
  induction zs generalizing xs row with
  | nil => rwa [List.append_nil]
  | cons a zs ih =>
    have hleft : EditDistance (xs ++ [a]) [] (xs.length + 1) := by
      have hlength := nil_right (xs ++ [a])
      rwa [List.length_append] at hlength
    have hnext := ih (h.next hleft)
    rwa [List.length_append, List.append_assoc] at hnext

theorem finalRow_spec (xs ys : List α)
    : EditDistance xs ys ((finalRow ys xs 0 (List.range (ys.length + 1))).getD ys.length 0) := by
  have hfirst : Row [] [] ys (List.range (ys.length + 1)) := by
    rw [List.range_eq_range']
    exact row_nil [] ys
  have hlast : Row xs [] ys (finalRow ys xs 0 (List.range (ys.length + 1))) := hfirst.last
  obtain ⟨d, hget, hd⟩ := hlast.exists_getElem?
  have hget : (finalRow ys xs 0 (List.range (ys.length + 1)))[ys.length]? = some d := hget
  rw [List.getD_eq_getElem?_getD, hget]
  exact hd

end Table

end EditDistance

variable {α : Type}

/--
One element is inserted, deleted or substituted, at any place.
-/
inductive SingleEdit : List α → List α → Prop where
  | insert (before after : List α) (b : α) : SingleEdit (before ++ after) (before ++ b :: after)
  | delete (before after : List α) (a : α) : SingleEdit (before ++ a :: after) (before ++ after)
  | substitute (before after : List α) (a b : α) : SingleEdit (before ++ a :: after) (before ++ b :: after)

/--
So many single edits lead from one list to another.
-/
inductive EditSteps : Nat → List α → List α → Prop where
  | done (xs : List α) : EditSteps 0 xs xs
  | step {n : Nat} {xs ys zs : List α} (edit : SingleEdit xs ys) (rest : EditSteps n ys zs) : EditSteps (n + 1) xs zs

namespace SingleEdit

variable {xs ys : List α}

theorem cons (a : α) (h : SingleEdit xs ys) : SingleEdit (a :: xs) (a :: ys) := by
  cases h with
  | insert before after b => exact .insert (a :: before) after b
  | delete before after c => exact .delete (a :: before) after c
  | substitute before after c b => exact .substitute (a :: before) after c b

theorem exists_middle (h : SingleEdit xs ys)
    : ∃ before mid mid' after, xs = before ++ (mid ++ after) ∧ ys = before ++ (mid' ++ after)
        ∧ mid.length ≤ 1 ∧ mid'.length ≤ 1 := by
  cases h with
  | insert before after b => exact ⟨before, [], [b], after, rfl, rfl, Nat.zero_le _, Nat.le_refl _⟩
  | delete before after a => exact ⟨before, [a], [], after, rfl, rfl, Nat.le_refl _, Nat.zero_le _⟩
  | substitute before after a b => exact ⟨before, [a], [b], after, rfl, rfl, Nat.le_refl _, Nat.le_refl _⟩

end SingleEdit

theorem EditSteps.cons {n : Nat} {xs ys : List α} (a : α) (h : EditSteps n xs ys) : EditSteps n (a :: xs) (a :: ys) := by
  induction h with
  | done xs => exact .done _
  | step edit rest ih => exact .step (edit.cons a) ih

namespace Edits

variable {xs ys zs : List α} {n : Nat}

theorem editSteps (h : Edits xs ys n) : EditSteps n xs ys := by
  induction h with
  | nil => exact .done []
  | keep a rest ih => exact ih.cons a
  | @replace xs ys n a b rest ih => exact .step (.substitute [] xs a b) (ih.cons b)
  | @delete xs ys n a rest ih => exact .step (.delete [] xs a) ih
  | @insert xs ys n b rest ih => exact .step (.insert [] xs b) (ih.cons b)

theorem of_max (xs ys : List α) : Edits xs ys (max xs.length ys.length) := by
  induction xs generalizing ys with
  | nil =>
    rw [List.length_nil, Nat.zero_max]
    exact of_nil ys
  | cons a xs ih =>
    cases ys with
    | nil =>
      rw [List.length_nil, Nat.max_zero]
      exact to_nil _
    | cons b ys =>
      rw [List.length_cons, List.length_cons, Nat.succ_max_succ]
      exact .replace a b (ih ys)

theorem exists_append {us vs : List α} (h : Edits (us ++ vs) zs n)
    : ∃ zs₁ zs₂ n₁ n₂, zs = zs₁ ++ zs₂ ∧ n = n₁ + n₂ ∧ Edits us zs₁ n₁ ∧ Edits vs zs₂ n₂ := by
  generalize hws : us ++ vs = ws at h
  induction h generalizing us with
  | nil =>
    obtain ⟨rfl, rfl⟩ := List.append_eq_nil_iff.1 hws
    exact ⟨[], [], 0, 0, rfl, rfl, .nil, .nil⟩
  | @keep xs ys n a rest ih =>
    cases us with
    | nil =>
      obtain rfl : vs = _ := hws
      exact ⟨[], a :: ys, 0, n, rfl, (Nat.zero_add _).symm, .nil, .keep a rest⟩
    | cons c us =>
      obtain ⟨rfl, htail⟩ := List.cons.inj hws
      obtain ⟨zs₁, zs₂, n₁, n₂, rfl, rfl, h₁, h₂⟩ := ih htail
      exact ⟨c :: zs₁, zs₂, n₁, n₂, rfl, rfl, .keep c h₁, h₂⟩
  | @replace xs ys n a b rest ih =>
    cases us with
    | nil =>
      obtain rfl : vs = _ := hws
      exact ⟨[], b :: ys, 0, n + 1, rfl, (Nat.zero_add _).symm, .nil, .replace a b rest⟩
    | cons c us =>
      obtain ⟨rfl, htail⟩ := List.cons.inj hws
      obtain ⟨zs₁, zs₂, n₁, n₂, rfl, rfl, h₁, h₂⟩ := ih htail
      exact ⟨b :: zs₁, zs₂, n₁ + 1, n₂, rfl, (Nat.succ_add n₁ n₂).symm, .replace c b h₁, h₂⟩
  | @delete xs ys n a rest ih =>
    cases us with
    | nil =>
      obtain rfl : vs = _ := hws
      exact ⟨[], ys, 0, n + 1, rfl, (Nat.zero_add _).symm, .nil, .delete a rest⟩
    | cons c us =>
      obtain ⟨rfl, htail⟩ := List.cons.inj hws
      obtain ⟨zs₁, zs₂, n₁, n₂, rfl, rfl, h₁, h₂⟩ := ih htail
      exact ⟨zs₁, zs₂, n₁ + 1, n₂, rfl, (Nat.succ_add n₁ n₂).symm, .delete c h₁, h₂⟩
  | @insert xs ys n b rest ih =>
    obtain ⟨zs₁, zs₂, n₁, n₂, rfl, rfl, h₁, h₂⟩ := ih hws
    exact ⟨b :: zs₁, zs₂, n₁ + 1, n₂, rfl, (Nat.succ_add n₁ n₂).symm, .insert b h₁, h₂⟩

theorem of_singleEdit (hedit : SingleEdit xs ys) (h : Edits ys zs n) : ∃ m, m ≤ n + 1 ∧ Edits xs zs m := by
  obtain ⟨before, mid, mid', after, rfl, rfl, hmid, hmid'⟩ := hedit.exists_middle
  obtain ⟨zs₁, zs₂, n₁, n₂, rfl, rfl, h₁, h₂⟩ := h.exists_append
  obtain ⟨zs₂, zs₃, n₂, n₃, rfl, rfl, h₂, h₃⟩ := h₂.exists_append
  refine ⟨_, ?_, h₁.append ((of_max mid zs₂).append h₃)⟩
  have := h₂.length_le.1
  omega

end Edits

theorem EditSteps.edits {n : Nat} {xs ys : List α} (h : EditSteps n xs ys) : ∃ m, m ≤ n ∧ Edits xs ys m := by
  induction h with
  | done xs =>
    refine ⟨0, Nat.le_refl _, ?_⟩
    induction xs with
    | nil => exact .nil
    | cons a xs ih => exact .keep a ih
  | step edit rest ih =>
    obtain ⟨m, hm, hedits⟩ := ih
    obtain ⟨m', hm', hedits'⟩ := hedits.of_singleEdit edit
    exact ⟨m', by omega, hedits'⟩

theorem EditDistance.isLeast_editSteps {xs ys : List α} {d : Nat} (h : EditDistance xs ys d)
    : IsLeast {n | EditSteps n xs ys} d := by
  refine ⟨h.1.editSteps, fun n hn => ?_⟩
  obtain ⟨m, hm, hedits⟩ := EditSteps.edits hn
  exact Nat.le_trans (h.2 hedits) hm
