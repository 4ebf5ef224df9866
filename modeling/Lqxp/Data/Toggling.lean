import Mathlib.Algebra.Ring.Parity
import Mathlib.Data.List.Sort
import Mathlib.Logic.Basic

/-!
This module contains the laws of toggling: a representation of sets in which one element at a time is put in
or taken out.
-/

namespace Toggling

section Sorted

variable {α : Type} [LinearOrder α]

theorem pairwise_lt_insertionSort {xs : List α} (h : xs.Nodup) : (xs.insertionSort (· ≤ ·)).Pairwise (· < ·) := by
  have hsorted : (xs.insertionSort (· ≤ ·)).Pairwise (· ≤ ·) := List.pairwise_insertionSort ..
  have hnodup : (xs.insertionSort (· ≤ ·)).Nodup := (List.perm_insertionSort _ _).nodup_iff.2 h
  exact (hsorted.and hnodup).imp fun h => lt_of_le_of_ne h.1 h.2

theorem eq_of_pairwise_lt {xs ys : List α} (hxs : xs.Pairwise (· < ·)) (hys : ys.Pairwise (· < ·))
    (h : ∀ x, x ∈ xs ↔ x ∈ ys) : xs = ys := by
  have hperm : xs.Perm ys := (List.perm_ext_iff_of_nodup (hxs.imp ne_of_lt) (hys.imp ne_of_lt)).2 h
  refine @List.Perm.eq_of_pairwise _ (· < ·) _ _ ?_ hxs hys hperm
  intro a b _ _ hab hba
  exact absurd hab (lt_asymm hba)

end Sorted

variable {σ π : Type}

/--
The valid states represent sets: `has` says which, `toggle` moves one element in or out, and no two valid
states represent the same set.
-/
structure Toggles (Valid : σ → Prop) (has : σ → π → Prop) (toggle : π → σ → σ) : Prop where
  keeps : ∀ p s, Valid s → Valid (toggle p s)
  has_toggle : ∀ p q s, Valid s → (has (toggle p s) q ↔ Xor (has s q) (q = p))
  ext : ∀ s s', Valid s → Valid s' → (∀ q, has s q ↔ has s' q) → s = s'

def toggleAll (toggle : π → σ → σ) (ps : List π) (s : σ) : σ := ps.foldl (fun s p => toggle p s) s

namespace Toggles

variable {Valid : σ → Prop} {has : σ → π → Prop} {toggle : π → σ → σ} {s : σ}

theorem toggle_toggle (h : Toggles Valid has toggle) (hs : Valid s) (p : π) : toggle p (toggle p s) = s := by
  refine h.ext _ _ (h.keeps p _ (h.keeps p s hs)) hs fun q => ?_
  rw [h.has_toggle p q _ (h.keeps p s hs), h.has_toggle p q s hs]
  by_cases hq : q = p <;> simp [Xor, hq]

theorem toggle_comm (h : Toggles Valid has toggle) (hs : Valid s) (p q : π)
    : toggle p (toggle q s) = toggle q (toggle p s) := by
  refine h.ext _ _ (h.keeps p _ (h.keeps q s hs)) (h.keeps q _ (h.keeps p s hs)) fun r => ?_
  rw [h.has_toggle p r _ (h.keeps q s hs), h.has_toggle q r s hs, h.has_toggle q r _ (h.keeps p s hs),
    h.has_toggle p r s hs]
  unfold Xor
  tauto

theorem keeps_toggleAll (h : Toggles Valid has toggle) (ps : List π) (hs : Valid s)
    : Valid (toggleAll toggle ps s) := by
  induction ps generalizing s with
  | nil => exact hs
  | cons p ps ih => exact ih (h.keeps p s hs)

variable [BEq π] [LawfulBEq π]

/--
What is in the set in the end: what was in it and has been toggled an even number of times, or was not and has
been toggled an odd number of times.
-/
theorem has_toggleAll (h : Toggles Valid has toggle) (ps : List π) (hs : Valid s) (q : π)
    : has (toggleAll toggle ps s) q ↔ Xor (has s q) (Odd (ps.count q)) := by
  induction ps generalizing s with
  | nil => simp [toggleAll, Xor]
  | cons p ps ih =>
    rw [toggleAll, List.foldl_cons, ← toggleAll, ih (h.keeps p s hs), h.has_toggle p q s hs, List.count_cons]
    by_cases hq : q = p
    . subst hq
      by_cases hhas : has s q <;> by_cases hodd : Odd (ps.count q) <;> simp [Xor, hhas, hodd, Nat.odd_add_one]
    . simp [Xor, hq, Ne.symm hq]

theorem toggleAll_congr (h : Toggles Valid has toggle) {ps ps' : List π} (hs : Valid s)
    (hparity : ∀ q, Odd (ps.count q) ↔ Odd (ps'.count q)) : toggleAll toggle ps s = toggleAll toggle ps' s := by
  refine h.ext _ _ (h.keeps_toggleAll ps hs) (h.keeps_toggleAll ps' hs) fun q => ?_
  rw [h.has_toggleAll ps hs, h.has_toggleAll ps' hs, hparity]

end Toggles

end Toggling
