import Mathlib.Algebra.Order.BigOperators.Group.List
import Mathlib.Algebra.Order.Group.Nat
import Mathlib.Algebra.GroupWithZero.Nat
import Lqxp.Data.AssocMap

/-!
This module contains the total of a quantity over the values of a finite map, and what each change of the
map does to it.
-/

namespace AssocMap

variable {κ ν : Type}

def total (f : ν → Nat) (m : AssocMap κ ν) : Nat := (m.values.map f).sum

theorem total_mapValues_le {f : ν → Nat} {g : κ → ν → ν} (h : ∀ k v, f (g k v) ≤ f v)
    (m : AssocMap κ ν) : total f (m.mapValues g) ≤ total f m := by
  simp only [total, values, mapValues, List.map_map]
  apply List.sum_le_sum
  intro x _
  exact h x.1 x.2

theorem total_retain_le (f : ν → Nat) (p : κ → ν → Bool) (m : AssocMap κ ν)
    : total f (m.retain p) ≤ total f m := by
  apply List.Sublist.sum_le_sum ?_ (by simp)
  apply List.Sublist.map
  apply List.Sublist.map
  exact List.filter_sublist

variable [DecidableEq κ]

private theorem sum_kerase (f : ν → Nat) (l : List (Sigma fun _ : κ => ν)) (k : κ)
    : (l.map (f ·.2)).sum = ((l.kerase k).map (f ·.2)).sum + ((l.dlookup k).map f).getD 0 := by
  induction l with
  | nil => rfl
  | cons x l ih =>
    obtain ⟨k', v⟩ := x
    by_cases h : k = k'
    . subst h
      simp [Nat.add_comm]
    . rw [List.kerase_cons_ne h, List.dlookup_cons_ne _ _ h, List.map_cons, List.sum_cons, ih,
        List.map_cons, List.sum_cons, Nat.add_assoc]

theorem total_eq_erase (f : ν → Nat) (k : κ) (m : AssocMap κ ν)
    : total f m = total f (m.erase k) + ((m.lookup k).map f).getD 0 := by
  simp only [total, values, List.map_map]
  exact sum_kerase f m.entries k

theorem total_insert (f : ν → Nat) (k : κ) (v : ν) (m : AssocMap κ ν)
    : total f (m.insert k v) = total f (m.erase k) + f v := by
  simp [total, values, AList.entries_insert, entries_erase, Nat.add_comm]

theorem total_modify {f : ν → Nat} {k : κ} {g : ν → ν} (h : ∀ v, f (g v) = f v) (m : AssocMap κ ν)
    : total f (m.modify k g) = total f m := by
  unfold modify
  split
  next v hv =>
    rw [total_insert, h, total_eq_erase f k m, hv]
    rfl
  next => rfl

omit [DecidableEq κ] in
theorem total_indicator (p : ν → Bool) (m : AssocMap κ ν)
    : total (fun v => if p v then 1 else 0) m = (m.values.filter p).length := by
  rw [total, ← List.countP_eq_length_filter]
  induction m.values with
  | nil => rfl
  | cons v l ih => rw [List.map_cons, List.sum_cons, ih, List.countP_cons, Nat.add_comm]

theorem total_congr {f g : ν → Nat} {m : AssocMap κ ν} (h : ∀ k v, m.lookup k = some v → f v = g v)
    : total f m = total g m := by
  refine congrArg List.sum (List.map_congr_left ?_)
  intro v hv
  obtain ⟨k, hk⟩ := exists_lookup_of_mem_values hv
  exact h k v hk

theorem exists_of_total_pos {f : ν → Nat} {m : AssocMap κ ν} (h : 0 < total f m)
    : ∃ k v, m.lookup k = some v ∧ 0 < f v := by
  by_contra hnone
  have hzero : ∀ n ∈ m.values.map f, n = 0 := by
    intro n hn
    obtain ⟨v, hv, rfl⟩ := List.mem_map.1 hn
    obtain ⟨⟨k, v⟩, hmem, rfl⟩ := List.mem_map.1 hv
    have hlookup : m.lookup k = some v := AList.mem_lookup_iff.2 hmem
    rcases Nat.eq_zero_or_pos (f v) with hzero | hpos
    . exact hzero
    . exact absurd ⟨k, v, hlookup, hpos⟩ hnone
  rw [total, List.sum_eq_zero hzero] at h
  omega

end AssocMap
