import Mathlib.Data.List.Destutter
import Mathlib.Data.List.GetD
import Mathlib.Data.List.Sort
import Mathlib.Order.Nat

/-!
This module contains lists of counters that grow on demand, and the sorted lists without repetitions that
say which of them to count up.
-/

namespace Counters

section Sorting

variable {α : Type}

theorem mem_destutter'_ne [DecidableEq α] {x : α} (a : α) (xs : List α)
    : x ∈ xs.destutter' (· ≠ ·) a ↔ x = a ∨ x ∈ xs := by
  induction xs generalizing a with
  | nil => simp
  | cons b xs ih =>
    by_cases hab : a = b
    . rw [List.destutter'_cons_neg xs (not_not_intro hab), ih, List.mem_cons, hab]
      tauto
    . rw [List.destutter'_cons_pos xs hab, List.mem_cons, ih, List.mem_cons]

theorem mem_destutter_ne [DecidableEq α] {x : α} {xs : List α} : x ∈ xs.destutter (· ≠ ·) ↔ x ∈ xs := by
  cases xs with
  | nil => rfl
  | cons a xs => rw [List.destutter_cons', mem_destutter'_ne, List.mem_cons]

theorem nodup_of_sorted {xs : List Nat} (hsorted : xs.Pairwise (· ≤ ·)) (hchain : xs.IsChain (· ≠ ·)) : xs.Nodup := by
  induction xs with
  | nil => exact .nil
  | cons a xs ih =>
    obtain ⟨hle, hsorted⟩ := List.pairwise_cons.1 hsorted
    refine List.nodup_cons.2 ⟨?_, ih hsorted hchain.tail⟩
    cases xs with
    | nil => exact List.not_mem_nil
    | cons b xs =>
      have hne : a ≠ b := (List.isChain_cons_cons.1 hchain).1
      have hab := hle b List.mem_cons_self
      intro hmem
      rcases List.mem_cons.1 hmem with heq | hmem
      . exact hne heq
      . have hba := (List.pairwise_cons.1 hsorted).1 a hmem
        omega

theorem nodup_destutter_insertionSort (xs : List Nat)
    : ((xs.insertionSort (· ≤ ·)).destutter (· ≠ ·)).Nodup :=
  nodup_of_sorted ((List.pairwise_insertionSort (· ≤ ·) xs).sublist (List.destutter_sublist _ _))
    (List.isChain_destutter _ _)

end Sorting

/--
Count up each of the choices, after making room for the largest of them.
-/
def add (choices counts : List Nat) : List Nat :=
  let needed := (choices.max?.map (· + 1)).getD 0
  choices.foldl (fun counts choice => counts.modify choice (· + 1)) (counts.rightpad needed 0)

section Add

variable {choices counts : List Nat}

theorem length_foldl_modify (choices counts : List Nat)
    : (choices.foldl (fun counts choice => counts.modify choice (· + 1)) counts).length = counts.length := by
  induction choices generalizing counts with
  | nil => rfl
  | cons choice choices ih => rw [List.foldl_cons, ih, List.length_modify]

theorem getD_foldl_modify {i : Nat} (hnodup : choices.Nodup) (hroom : ∀ choice ∈ choices, choice < counts.length)
    : (choices.foldl (fun counts choice => counts.modify choice (· + 1)) counts).getD i 0
        = counts.getD i 0 + if i ∈ choices then 1 else 0 := by
  induction choices generalizing counts with
  | nil => simp
  | cons choice choices ih =>
    obtain ⟨hnot, hnodup⟩ := List.nodup_cons.1 hnodup
    obtain ⟨hfits, hroom⟩ := List.forall_mem_cons.1 hroom
    rw [List.foldl_cons, ih hnodup (by simpa using hroom)]
    simp only [List.getD_eq_getElem?_getD, List.getElem?_modify]
    by_cases hi : choice = i
    . subst hi
      simp [hnot, List.getElem?_eq_getElem hfits]
    . simp [hi, Ne.symm hi]

theorem lt_needed {choice : Nat} (h : choice ∈ choices) : choice < (choices.max?.map (· + 1)).getD 0 := by
  cases hmax : choices.max? with
  | none =>
    rw [List.max?_eq_none_iff.1 hmax] at h
    contradiction
  | some largest => exact Nat.lt_succ_of_le ((List.max?_eq_some_iff.1 hmax).2 choice h)

theorem getD_add {i : Nat} (hnodup : choices.Nodup)
    : (add choices counts).getD i 0 = counts.getD i 0 + if i ∈ choices then 1 else 0 := by
  rw [add, getD_foldl_modify hnodup]
  . congr 1
    rw [List.rightpad, List.getD_eq_getElem?_getD, List.getD_eq_getElem?_getD, List.getElem?_append]
    split
    next => rfl
    next hge =>
      rw [List.getElem?_eq_none (Nat.not_lt.1 hge), List.getElem?_replicate]
      split <;> rfl
  . intro choice hchoice
    have hlt := lt_needed hchoice
    rw [List.length_rightpad]
    omega

theorem length_add_le {n : Nat} (hcounts : counts.length ≤ n) (hchoices : ∀ choice ∈ choices, choice < n)
    : (add choices counts).length ≤ n := by
  rw [add, length_foldl_modify, List.length_rightpad]
  refine max_le ?_ hcounts
  cases hmax : choices.max? with
  | none => exact Nat.zero_le n
  | some largest => exact hchoices largest (List.max?_eq_some_iff.1 hmax).1

end Add

end Counters
