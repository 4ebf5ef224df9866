import Mathlib.Data.List.Basic

/-!
This module contains readings of a list: each item is left out, where that is allowed, or read as something else.
-/

variable {α β : Type}

inductive Reads (droppable : α → Prop) (f : α → List β) : List α → List β → Prop where
  | nil : Reads droppable f [] []
  | drop {a : α} {xs : List α} {ys : List β} (h : droppable a) (rest : Reads droppable f xs ys)
    : Reads droppable f (a :: xs) ys
  | read {xs : List α} {ys : List β} (a : α) (rest : Reads droppable f xs ys) : Reads droppable f (a :: xs) (f a ++ ys)

namespace Reads

variable {droppable : α → Prop} {f : α → List β} {xs : List α} {ys : List β} {a : α}

theorem read_single {b : β} (ha : f a = [b]) (rest : Reads droppable f xs ys)
    : Reads droppable f (a :: xs) (b :: ys) := by
  have hread := rest.read a
  rwa [ha] at hread

theorem droppable_or_subset (h : Reads droppable f xs ys) (ha : a ∈ xs) : droppable a ∨ f a ⊆ ys := by
  induction h with
  | nil => exact absurd ha List.not_mem_nil
  | drop hdrop rest ih =>
    rcases List.mem_cons.1 ha with rfl | ha
    . exact .inl hdrop
    . exact ih ha
  | read b rest ih =>
    rcases List.mem_cons.1 ha with rfl | ha
    . exact .inr (List.subset_append_left _ _)
    . exact (ih ha).imp_right fun hsub => List.subset_append_of_subset_right _ hsub

theorem filter_flatMap_eq {p : β → Bool} (h : Reads droppable f xs ys)
    (hdrop : ∀ a, droppable a → ∀ b ∈ f a, p b = false) (hys : ∀ b ∈ ys, p b = true) : (xs.flatMap f).filter p = ys := by
  induction h with
  | nil => rfl
  | @drop a xs ys ha rest ih =>
    have hnone : (f a).filter p = [] := List.filter_eq_nil_iff.2 fun b hb => by simp [hdrop a ha b hb]
    rw [List.flatMap_cons, List.filter_append, hnone, List.nil_append, ih hys]
  | read a rest ih =>
    obtain ⟨hfirst, hrest⟩ := List.forall_mem_append.1 hys
    rw [List.flatMap_cons, List.filter_append, ih hrest, List.filter_eq_self.2 hfirst]

end Reads
