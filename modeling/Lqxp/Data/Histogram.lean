import Mathlib.Algebra.GroupWithZero.Nat
import Mathlib.Data.List.Dedup
import Mathlib.Data.List.Sort

/-!
This module contains the counting of equal keys, the way a query groups rows, and the bins that such counts are
written to.
-/

namespace Histogram

/--
The keys in order, each with the number of its occurrences.
-/
def groupCounts (keys : List Int) : List (Int × Int) :=
  (keys.dedup.mergeSort (· ≤ ·)).map fun key => (key, (keys.count key : Int))

/--
Write a count to the bin of its key, if there is one.
-/
def setBin (bins : List Nat) (group : Int × Int) : List Nat :=
  if 0 ≤ group.1 && group.1.toNat < bins.length then bins.set group.1.toNat (max group.2 0).toNat else bins

section Groups

variable {keys : List Int}

theorem mem_groupCounts {group : Int × Int}
    : group ∈ groupCounts keys ↔ group.1 ∈ keys ∧ group.2 = keys.count group.1 := by
  simp only [groupCounts, List.mem_map, List.mem_mergeSort, List.mem_dedup]
  constructor
  . rintro ⟨key, hkey, rfl⟩
    exact ⟨hkey, rfl⟩
  . rintro ⟨hkey, hcount⟩
    exact ⟨group.1, hkey, Prod.ext rfl hcount.symm⟩

theorem nodup_keys_groupCounts (keys : List Int) : ((groupCounts keys).map (·.1)).Nodup := by
  have hkeys : (groupCounts keys).map (·.1) = keys.dedup.mergeSort (· ≤ ·) := by
    rw [groupCounts, List.map_map]
    exact List.map_id _
  rw [hkeys]
  exact (List.mergeSort_perm _ _).nodup_iff.2 keys.nodup_dedup

end Groups

section Bins

variable {bins : List Nat} {groups : List (Int × Int)} {i : Nat}

theorem length_foldl_setBin (bins : List Nat) (groups : List (Int × Int))
    : (groups.foldl setBin bins).length = bins.length := by
  induction groups generalizing bins with
  | nil => rfl
  | cons group groups ih =>
    rw [List.foldl_cons, ih, setBin]
    split
    . exact List.length_set
    . rfl

theorem getElem?_setBin_of_ne {group : Int × Int} (h : group.1 ≠ i) : (setBin bins group)[i]? = bins[i]? := by
  rw [setBin]
  split
  next hbin =>
    rw [Bool.and_eq_true, decide_eq_true_eq, decide_eq_true_eq] at hbin
    exact List.getElem?_set_ne (by omega)
  next => rfl

theorem getElem?_foldl_setBin_of_not_mem (h : (i : Int) ∉ groups.map (·.1))
    : (groups.foldl setBin bins)[i]? = bins[i]? := by
  induction groups generalizing bins with
  | nil => rfl
  | cons group groups ih =>
    rw [List.map_cons, List.mem_cons, not_or] at h
    rw [List.foldl_cons, ih h.2, getElem?_setBin_of_ne (Ne.symm h.1)]

theorem getElem?_foldl_setBin_of_mem (hkeys : (groups.map (·.1)).Nodup) (hi : i < bins.length) {count : Nat}
    (h : ((i : Int), (count : Int)) ∈ groups) : (groups.foldl setBin bins)[i]? = some count := by
  induction groups generalizing bins with
  | nil => contradiction
  | cons group groups ih =>
    rw [List.map_cons, List.nodup_cons] at hkeys
    rw [List.foldl_cons]
    rcases List.mem_cons.1 h with rfl | hmem
    . have hset : setBin bins ((i : Int), (count : Int)) = bins.set i count := by
        have hbin : (0 ≤ (i : Int) && (i : Int).toNat < bins.length) = true := by simpa using hi
        rw [setBin, if_pos hbin]
        simp
      rw [getElem?_foldl_setBin_of_not_mem hkeys.1, hset, List.getElem?_set_self hi]
    . refine ih hkeys.2 ?_ hmem
      rwa [← length_foldl_setBin bins [group]] at hi

theorem getElem?_fill (keys : List Int) {n : Nat} (hi : i < n)
    : ((groupCounts keys).foldl setBin (List.replicate n 0))[i]? = some (keys.count (i : Int)) := by
  by_cases hmem : (i : Int) ∈ keys
  . refine getElem?_foldl_setBin_of_mem (nodup_keys_groupCounts keys) ?_ (mem_groupCounts.2 ⟨hmem, rfl⟩)
    rwa [List.length_replicate]
  . rw [getElem?_foldl_setBin_of_not_mem, List.count_eq_zero_of_not_mem hmem, List.getElem?_replicate_of_lt hi]
    intro h
    obtain ⟨group, hgroup, heq⟩ := List.mem_map.1 h
    exact hmem (heq ▸ (mem_groupCounts.1 hgroup).1)

end Bins

section Sums

variable (l : List α) (f : α → Int) (a : Int)

theorem countP_lt_succ (n : Nat)
    : l.countP (fun c => a ≤ f c ∧ f c < a + (n + 1 : Nat))
        = l.countP (fun c => a ≤ f c ∧ f c < a + n) + l.countP (f · = a + n) := by
  induction l with
  | nil => rfl
  | cons c l ih =>
    simp only [List.countP_cons, ih, decide_eq_true_eq]
    split
    . split
      . split
        . omega
        . omega
      . split
        . omega
        . omega
    . split
      . omega
      . split
        . omega
        . omega

theorem sum_countP (n : Nat)
    : ((List.range n).map fun i : Nat => l.countP (f · = a + i)).sum = l.countP fun c => a ≤ f c ∧ f c < a + n := by
  induction n with
  | zero =>
    rw [List.countP_eq_zero.2]
    . rfl
    . intro c _ h
      have := of_decide_eq_true h
      omega
  | succ n ih => rw [List.range_succ, List.map_append, List.sum_append, ih, countP_lt_succ, List.map_singleton,
      List.sum_singleton]

end Sums

end Histogram
