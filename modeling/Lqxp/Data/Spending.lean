import Lqxp.Data.AssocMap

/-!
This module contains the memory of keys that may be used once: each used key is remembered until a time of
its own, and forgotten some time after that.
-/

namespace Spending

variable {κ : Type} [DecidableEq κ]

/--
Forget the keys whose time is over, once there are more than `limit` keys.
-/
def purge (limit now : Nat) (m : AssocMap κ Nat) : AssocMap κ Nat :=
  if limit < m.size then m.retain fun _ expires => now < expires else m

/--
Use a key at time `now` and remember it until `expires`, unless it is one that is still remembered.
-/
def spendOnce (limit now : Nat) (key : κ) (expires : Nat) (m : AssocMap κ Nat)
    : Bool × AssocMap κ Nat :=
  let m := purge limit now m
  if (m.lookup key).any (now < ·) then (false, m) else (true, m.insert key expires)

/--
The key is remembered until `bound` at least.
-/
def Remembered (key : κ) (bound : Nat) (m : AssocMap κ Nat) : Prop :=
  ∃ expires, m.lookup key = some expires ∧ bound ≤ expires

variable {limit now expires bound : Nat} {key key' : κ} {m : AssocMap κ Nat}

theorem Remembered.purge (limit : Nat) (h : Remembered key bound m) (hnow : now < bound)
    : Remembered key bound (purge limit now m) := by
  obtain ⟨expires, hlookup, hbound⟩ := h
  refine ⟨expires, ?_, hbound⟩
  rw [Spending.purge]
  split
  . have hlive : now < expires := by omega
    simp [hlookup, hlive]
  . exact hlookup

theorem remembered_spendOnce (h : (spendOnce limit now key expires m).1 = true)
    : Remembered key expires (spendOnce limit now key expires m).2 := by
  simp only [spendOnce] at h ⊢
  split at h
  . contradiction
  next hfresh =>
    rw [if_neg hfresh]
    exact ⟨expires, AList.lookup_insert _, Nat.le_refl _⟩

theorem spendOnce_eq (limit expires : Nat) (h : ∀ old, m.lookup key = some old → old ≤ now)
    : spendOnce limit now key expires m = (true, (purge limit now m).insert key expires) := by
  have hforgotten : ∀ old, (purge limit now m).lookup key = some old → old ≤ now := by
    intro old hold
    rw [purge] at hold
    split at hold
    . rw [AssocMap.lookup_retain] at hold
      exact h old (Option.filter_eq_some_iff.1 hold).1
    . exact h old hold
  have hnone : ¬ ((purge limit now m).lookup key).any (now < ·) := by
    simp only [Option.any_eq_true, decide_eq_true_eq]
    rintro ⟨old, hold, hlive⟩
    exact Nat.not_lt.2 (hforgotten old hold) hlive
  rw [spendOnce, if_neg hnone]

theorem Remembered.spendOnce_fst (limit expires : Nat) (h : Remembered key bound m) (hnow : now < bound)
    : (spendOnce limit now key expires m).1 = false := by
  obtain ⟨expires', hlookup, hbound⟩ := h.purge limit hnow
  have hlive : now < expires' := by omega
  simp [spendOnce, hlookup, hlive]

theorem Remembered.spendOnce_snd (limit : Nat) (key' : κ) (expires : Nat) (h : Remembered key bound m) (hnow : now < bound)
    : Remembered key bound (spendOnce limit now key' expires m).2 := by
  obtain ⟨expires', hlookup, hbound⟩ := h.purge limit hnow
  simp only [spendOnce]
  split
  . exact ⟨expires', hlookup, hbound⟩
  next hfresh =>
    refine ⟨expires', ?_, hbound⟩
    rw [AssocMap.lookup_insert]
    split
    next heq =>
      subst heq
      have hlive : now < expires' := by omega
      simp [hlookup, hlive] at hfresh
    next => exact hlookup

section Changes

/--
The keys that a use puts into the memory: those that the memory has afterwards and not before, or not with
this time.
-/
def Added (m m' : AssocMap κ Nat) (key : κ) : Prop := (m'.lookup key).isSome ∧ m'.lookup key ≠ m.lookup key

theorem lookup_purge (limit now : Nat) (m : AssocMap κ Nat) (h : ((purge limit now m).lookup key).isSome)
    : (purge limit now m).lookup key = m.lookup key := by
  rw [purge] at h ⊢
  split
  next hfull =>
    rw [if_pos hfull] at h
    rw [AssocMap.lookup_retain] at h ⊢
    cases hkey : m.lookup key with
    | none => rfl
    | some old =>
      rw [hkey] at h
      obtain ⟨old', hold'⟩ := Option.isSome_iff_exists.1 h
      rw [hold']
      exact (Option.filter_eq_some_iff.1 hold').1.symm
  next => rfl

theorem added_iff_of_spendOnce {m' : AssocMap κ Nat} (hexpires : now < expires)
    (h : spendOnce limit now key expires m = (true, m')) : Added m m' key' ↔ key' = key := by
  simp only [spendOnce] at h
  split at h
  . exact absurd (congrArg Prod.fst h) Bool.false_ne_true
  next hfresh =>
    obtain rfl : AList.insert key expires (purge limit now m) = m' := congrArg Prod.snd h
    rw [Added, AssocMap.lookup_insert]
    constructor
    . rintro ⟨hsome, hnew⟩
      by_contra hne
      rw [if_neg hne] at hsome hnew
      exact hnew (lookup_purge limit now m hsome)
    . rintro rfl
      refine ⟨by rw [if_pos rfl]; rfl, fun hsame => hfresh ?_⟩
      rw [if_pos rfl] at hsame
      -- the key would be remembered with the same time, and so it would not be fresh
      obtain ⟨old, hold, hle⟩ := Remembered.purge limit ⟨expires, hsame.symm, Nat.le_refl _⟩ hexpires
      rw [hold]
      simpa using Nat.lt_of_lt_of_le hexpires hle

end Changes

end Spending
