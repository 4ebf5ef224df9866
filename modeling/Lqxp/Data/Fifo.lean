import Lqxp.Data.AssocTotal

/-!
This module contains finite maps whose entries are numbered in the order in which they came, and of which
the oldest one goes when the map is full.
-/

namespace Lqxp

section Minimum

variable {α : Type} {f : α → Nat} {xs : List α} {x : α}

/--
The first of the elements at which `f` is least.
-/
def minByKey {α : Type} (f : α → Nat) : List α → Option α
  | [] => none
  | x :: xs =>
    match minByKey f xs with
    | some y => if f y < f x then some y else some x
    | none => some x

theorem mem_of_minByKey (h : minByKey f xs = some x) : x ∈ xs := by
  induction xs generalizing x with
  | nil => contradiction
  | cons y ys ih =>
    rw [minByKey] at h
    split at h
    next z hz =>
      split at h
      . obtain rfl := Option.some.inj h
        exact .tail _ (ih hz)
      . obtain rfl := Option.some.inj h
        exact .head _
    next =>
      obtain rfl := Option.some.inj h
      exact .head _

theorem minByKey_eq_none (h : minByKey f xs = none) : xs = [] := by
  cases xs with
  | nil => rfl
  | cons x xs =>
    rw [minByKey] at h
    split at h
    . split at h <;> contradiction
    . contradiction

theorem minByKey_le (h : minByKey f xs = some x) : ∀ y ∈ xs, f x ≤ f y := by
  induction xs generalizing x with
  | nil => contradiction
  | cons y ys ih =>
    intro z hz
    rw [minByKey] at h
    split at h
    next w hw =>
      have hrest := ih hw
      split at h
      next hlt =>
        obtain rfl := Option.some.inj h
        rcases List.mem_cons.1 hz with rfl | hz
        . exact Nat.le_of_lt hlt
        . exact hrest z hz
      next hge =>
        obtain rfl := Option.some.inj h
        rcases List.mem_cons.1 hz with rfl | hz
        . exact Nat.le_refl _
        . exact Nat.le_trans (Nat.not_lt.1 hge) (hrest z hz)
    next hnone =>
      obtain rfl := Option.some.inj h
      obtain rfl := minByKey_eq_none hnone
      rw [List.mem_singleton.1 hz]

end Minimum

end Lqxp

namespace Fifo

open Lqxp AssocMap

variable {κ ν : Type}

/--
The order in which a hash map yields its entries, which is any order at all.
-/
structure MapOrder (κ ν : Type) where
  entries : AssocMap κ ν → List (Sigma fun _ : κ => ν)
  perm (m : AssocMap κ ν) : (entries m).Perm m.entries

def MapOrder.insertion : MapOrder κ ν where
  entries m := m.entries
  perm _ := .refl _

variable (seq : ν → Nat)

def oldest (order : MapOrder κ ν) (m : AssocMap κ ν) : Option κ :=
  (minByKey (fun entry => seq entry.2) (order.entries m)).map (·.1)

/--
The number of entries that came after the one with number `n`.
-/
def newer (n : Nat) (m : AssocMap κ ν) : Nat := total (fun v => if n < seq v then 1 else 0) m

variable [DecidableEq κ]

/--
Drop the oldest entry until fewer than `limit` are left, at most as often as the fuel allows.
-/
def evict (limit : Nat) (order : MapOrder κ ν) : Nat → AssocMap κ ν → AssocMap κ ν
  | 0, m => m
  | fuel + 1, m =>
    if limit ≤ m.size then
      match oldest seq order m with
      | some k => evict limit order fuel (m.erase k)
      | none => m
    else
      m

/--
The entries of the map carry different numbers below `next`.
-/
structure Numbered (next : Nat) (m : AssocMap κ ν) : Prop where
  lt : m.All fun _ v => seq v < next
  unique : ∀ k k' v v', m.lookup k = some v → m.lookup k' = some v' → seq v = seq v' → k = k'

section Size

variable {m : AssocMap κ ν} {k : κ} {v : ν}

omit [DecidableEq κ] in
theorem size_eq_total (m : AssocMap κ ν) : m.size = total (fun _ => 1) m := by
  simp [AssocMap.size, total, AssocMap.values, Function.comp_def]

theorem size_erase (h : m.lookup k = some v) : size (m.erase k) + 1 = m.size := by
  rw [size_eq_total, size_eq_total, total_eq_erase _ k m, h]
  rfl

theorem size_insert_le (k : κ) (v : ν) (m : AssocMap κ ν) : size (m.insert k v) ≤ m.size + 1 := by
  rw [size_eq_total, size_eq_total, total_insert, total_eq_erase _ k m]
  omega

theorem size_modify (k : κ) (f : ν → ν) (m : AssocMap κ ν) : size (m.modify k f) = m.size := by
  rw [size_eq_total, size_eq_total, total_modify (g := f) fun _ => rfl]

end Size

section Oldest

variable {seq} {order : MapOrder κ ν} {m : AssocMap κ ν} {k : κ}

theorem lookup_oldest (h : oldest seq order m = some k)
    : ∃ v, m.lookup k = some v ∧ ∀ k' v', m.lookup k' = some v' → seq v ≤ seq v' := by
  obtain ⟨⟨k, v⟩, hmin, rfl⟩ := Option.map_eq_some_iff.1 h
  refine ⟨v, AList.mem_lookup_iff.2 ((order.perm m).mem_iff.1 (mem_of_minByKey hmin)), ?_⟩
  intro k' v' hlookup
  exact minByKey_le hmin ⟨k', v'⟩ ((order.perm m).mem_iff.2 (AList.mem_lookup_iff.1 hlookup))

omit [DecidableEq κ] in
theorem oldest_eq_none (h : oldest seq order m = none) : m.size = 0 := by
  have hentries : order.entries m = [] := minByKey_eq_none (Option.map_eq_none_iff.1 h)
  rw [AssocMap.size, ← (order.perm m).length_eq, hentries]
  rfl

end Oldest

section Evict

variable {seq} {limit fuel next : Nat} {order : MapOrder κ ν} {m : AssocMap κ ν}

theorem evict_of_lt (h : m.size < limit) : evict seq limit order fuel m = m := by
  cases fuel with
  | zero => rfl
  | succ fuel => rw [evict, if_neg (Nat.not_le.2 h)]

theorem size_evict_lt (hlimit : 0 < limit) (hfuel : m.size ≤ fuel)
    : (evict seq limit order fuel m).size < limit := by
  induction fuel generalizing m with
  | zero =>
    rw [evict]
    omega
  | succ fuel ih =>
    rw [evict]
    split
    next hle =>
      split
      next k hk =>
        obtain ⟨v, hv, -⟩ := lookup_oldest hk
        have hsize := size_erase hv
        exact ih (by omega)
      next hnone =>
        rw [oldest_eq_none hnone]
        exact hlimit
    next hlt => exact Nat.not_le.1 hlt

theorem lookup_of_evict {k : κ} {v : ν} (h : (evict seq limit order fuel m).lookup k = some v)
    : m.lookup k = some v := by
  induction fuel generalizing m with
  | zero => exact h
  | succ fuel ih =>
    rw [evict] at h
    split at h
    . split at h
      . have hkept := ih h
        rw [lookup_erase] at hkept
        split at hkept
        . contradiction
        . exact hkept
      . exact h
    . exact h

theorem evict_full (hlimit : 0 < limit) (hsize : m.size = limit)
    : ∃ k v, m.lookup k = some v ∧ (∀ k' v', m.lookup k' = some v' → seq v ≤ seq v')
        ∧ evict seq limit order m.size m = m.erase k := by
  obtain ⟨fuel, hfuel⟩ : ∃ fuel, m.size = fuel + 1 := ⟨m.size - 1, by omega⟩
  rw [hfuel, evict, if_pos (Nat.le_of_eq hsize.symm)]
  split
  next k hk =>
    obtain ⟨v, hv, hleast⟩ := lookup_oldest hk
    have herase := size_erase hv
    exact ⟨k, v, hv, hleast, evict_of_lt (by omega)⟩
  next hnone =>
    rw [oldest_eq_none hnone] at hsize
    omega

end Evict

namespace Numbered

variable {seq} {next : Nat} {m : AssocMap κ ν} {k : κ} {v : ν}

theorem empty : Numbered seq next (∅ : AssocMap κ ν) where
  lt := .empty
  unique := by
    intro k k' v v' hv
    simp at hv

theorem erase (h : Numbered seq next m) (k : κ) : Numbered seq next (m.erase k) where
  lt := h.lt.erase
  unique := by
    intro k₁ k₂ v₁ v₂ h₁ h₂ heq
    rw [lookup_erase] at h₁ h₂
    split at h₁
    . contradiction
    . split at h₂
      . contradiction
      . exact h.unique k₁ k₂ v₁ v₂ h₁ h₂ heq

theorem evict {limit fuel : Nat} {order : MapOrder κ ν} (h : Numbered seq next m)
    : Numbered seq next (Fifo.evict seq limit order fuel m) := by
  induction fuel generalizing m with
  | zero => exact h
  | succ fuel ih =>
    rw [Fifo.evict]
    split
    . split
      . exact ih (h.erase _)
      . exact h
    . exact h

theorem insert (h : Numbered seq next m) (hv : seq v = next) : Numbered seq (next + 1) (m.insert k v) where
  lt := by
    refine AssocMap.All.insert ?_ (by omega)
    intro k' v' hlookup
    exact Nat.lt_succ_of_lt (h.lt k' v' hlookup)
  unique := by
    intro k₁ k₂ v₁ v₂ h₁ h₂ heq
    rw [lookup_insert] at h₁ h₂
    split at h₁
    next hk₁ =>
      obtain rfl := Option.some.inj h₁
      split at h₂
      next hk₂ => rw [hk₁, hk₂]
      next =>
        have hlt := h.lt k₂ v₂ h₂
        omega
    next =>
      split at h₂
      next =>
        obtain rfl := Option.some.inj h₂
        have hlt := h.lt k₁ v₁ h₁
        omega
      next => exact h.unique k₁ k₂ v₁ v₂ h₁ h₂ heq

theorem modify {f : ν → ν} (h : Numbered seq next m) (hf : ∀ v, seq (f v) = seq v)
    : Numbered seq next (m.modify k f) where
  lt := h.lt.modify fun v _ hlt => (hf v).symm ▸ hlt
  unique := by
    have hback : ∀ {k' w}, (m.modify k f).lookup k' = some w → ∃ v, m.lookup k' = some v ∧ seq v = seq w := by
      intro k' w hw
      rw [lookup_modify] at hw
      split at hw
      . obtain ⟨v, hv, rfl⟩ := Option.map_eq_some_iff.1 hw
        exact ⟨v, hv, (hf v).symm⟩
      . exact ⟨w, hw, rfl⟩
    intro k₁ k₂ w₁ w₂ h₁ h₂ heq
    obtain ⟨v₁, hv₁, hseq₁⟩ := hback h₁
    obtain ⟨v₂, hv₂, hseq₂⟩ := hback h₂
    exact h.unique k₁ k₂ v₁ v₂ hv₁ hv₂ (by omega)

end Numbered

section Newer

variable {seq} {next n : Nat} {m : AssocMap κ ν} {k : κ} {v : ν}

theorem newer_insert_le (k : κ) (v : ν) (m : AssocMap κ ν) (n : Nat)
    : newer seq n (m.insert k v) ≤ newer seq n m + 1 := by
  rw [newer, newer, total_insert, total_eq_erase _ k m]
  split <;> omega

theorem newer_erase_le (k : κ) (m : AssocMap κ ν) (n : Nat) : newer seq n (m.erase k) ≤ newer seq n m := by
  rw [newer, newer, total_eq_erase _ k m]
  omega

theorem newer_modify {f : ν → ν} (hf : ∀ v, seq (f v) = seq v) (k : κ) (m : AssocMap κ ν) (n : Nat)
    : newer seq n (m.modify k f) = newer seq n m :=
  total_modify (fun v => by rw [hf]) m

theorem newer_eq_zero (h : Numbered seq next m) (hn : next ≤ n) : newer seq n m = 0 := by
  by_contra hne
  obtain ⟨k, v, hv, hpos⟩ := exists_of_total_pos (Nat.pos_of_ne_zero hne)
  have hlt := h.lt k v hv
  rw [if_neg (by omega)] at hpos
  omega

theorem newer_insert_eq_zero (h : Numbered seq next m) (hv : seq v = next)
    : newer seq (seq v) (m.insert k v) = 0 := by
  have hold := newer_eq_zero h (Nat.le_of_eq hv.symm)
  have herase := @newer_erase_le _ _ seq _ k m (seq v)
  rw [newer] at hold herase
  rw [newer, total_insert, if_neg (Nat.lt_irrefl _)]
  rw [newer] at herase
  omega

theorem newer_oldest (h : Numbered seq next m) (hv : m.lookup k = some v)
    (hleast : ∀ k' v', m.lookup k' = some v' → seq v ≤ seq v') : newer seq (seq v) m + 1 = m.size := by
  have hothers : newer seq (seq v) (m.erase k) = size (m.erase k) := by
    rw [size_eq_total]
    refine total_congr ?_
    intro k' v' hv'
    rw [lookup_erase] at hv'
    split at hv'
    next => contradiction
    next hne =>
      have hle := hleast k' v' hv'
      have hdistinct : seq v ≠ seq v' := fun heq => hne (h.unique k' k v' v hv' hv heq.symm)
      rw [if_pos (by omega)]
  rw [← size_erase hv, ← hothers, newer, newer, total_eq_erase _ k m, hv]
  simp

end Newer

end Fifo
