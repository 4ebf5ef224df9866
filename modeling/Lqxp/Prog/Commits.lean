import Mathlib.Data.List.Pairwise
import Mathlib.Order.Basic
import Lqxp.Prog.Pool

/-!
This module contains reads and commits in the runs of a pool: what has been committed, and which part of it
a thread cannot know of, because it came after the thread has read.
-/

namespace Prog

variable {ι ε ℓ γ τ : Type}

/--
Which events commit a value, and which thread reads at an event. No event does both.
-/
structure Commits (ι ε ℓ γ τ : Type) where
  value : Event ι ε ℓ γ → Option τ
  reader : Event ι ε ℓ γ → Option Nat
  apart : ∀ ev i, reader ev = some i → value ev = none

namespace Commits

variable (C : Commits ι ε ℓ γ τ)

def all (tr : List (Event ι ε ℓ γ)) : List τ := tr.filterMap C.value

/--
What had been committed before the last read of a thread, and what has been since.
-/
def view (i : Nat) (tr : List (Event ι ε ℓ γ)) : List τ × List τ :=
  tr.foldl
    (fun acc ev =>
      if C.reader ev = some i then (acc.1 ++ acc.2, []) else (acc.1, acc.2 ++ (C.value ev).toList))
    ([], [])

def seen (i : Nat) (tr : List (Event ι ε ℓ γ)) : List τ := (C.view i tr).1

def since (i : Nat) (tr : List (Event ι ε ℓ γ)) : List τ := (C.view i tr).2

variable {C} {tr : List (Event ι ε ℓ γ)} {ev : Event ι ε ℓ γ} {i : Nat}

@[simp]
theorem all_nil : C.all ([] : List (Event ι ε ℓ γ)) = [] := rfl

theorem all_concat : C.all (tr ++ [ev]) = C.all tr ++ (C.value ev).toList := by
  rw [all, all, List.filterMap_append]
  cases h : C.value ev <;> simp [h]

theorem view_concat
    : C.view i (tr ++ [ev])
        = if C.reader ev = some i then (C.seen i tr ++ C.since i tr, [])
          else (C.seen i tr, C.since i tr ++ (C.value ev).toList) := by
  rw [view, List.foldl_append]
  rfl

theorem seen_append_since (i : Nat) (tr : List (Event ι ε ℓ γ)) : C.seen i tr ++ C.since i tr = C.all tr := by
  induction tr using List.reverseRecOn with
  | nil => rfl
  | append_singleton tr ev ih =>
    rw [seen, since, view_concat, all_concat, ← ih]
    split
    next hread => simp [C.apart ev i hread]
    next => exact (List.append_assoc _ _ _).symm

theorem seen_of_read (h : C.reader ev = some i) : C.seen i (tr ++ [ev]) = C.all tr := by
  rw [seen, view_concat, if_pos h, ← seen_append_since i tr]

theorem seen_of_not_read (h : C.reader ev ≠ some i) : C.seen i (tr ++ [ev]) = C.seen i tr := by
  rw [seen, view_concat, if_neg h]

theorem mem_all_of_mem_since {v : τ} (h : v ∈ C.since i tr) : v ∈ C.all tr := by
  rw [← seen_append_since i tr]
  exact List.mem_append_right _ h

theorem mem_seen_or_since {v : τ} (i : Nat) (h : v ∈ C.all tr) : v ∈ C.seen i tr ∨ v ∈ C.since i tr := by
  rw [← seen_append_since i tr] at h
  exact List.mem_append.1 h

theorem seen_sublist (i : Nat) (tr : List (Event ι ε ℓ γ)) : (C.seen i tr).Sublist (C.all tr) := by
  rw [← seen_append_since i tr]
  exact List.sublist_append_left _ _

theorem le_getLastD_seen [Preorder τ] {v₀ v : τ} (h : (v₀ :: C.all tr).Pairwise (· < ·))
    (hmem : v ∈ v₀ :: C.seen i tr) : v ≤ (C.seen i tr).getLastD v₀ := by
  have hsorted : (v₀ :: C.seen i tr).Pairwise (· ≤ ·) :=
    (h.sublist ((seen_sublist i tr).cons_cons v₀)).imp le_of_lt
  rw [← List.getLast_eq_getLastD (List.cons_ne_nil _ _)]
  exact hsorted.rel_getLast hmem

end Commits

end Prog
