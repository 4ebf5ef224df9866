import Mathlib.Data.List.AList

/-!
This module contains finite maps: association lists without duplicate keys, with the operations that
in-place updates need.
-/

abbrev AssocMap (κ ν : Type) := AList fun _ : κ => ν

namespace AssocMap

variable {κ ν : Type} [DecidableEq κ]

def values (m : AssocMap κ ν) : List ν := m.entries.map (·.2)

def modify (k : κ) (f : ν → ν) (m : AssocMap κ ν) : AssocMap κ ν :=
  match m.lookup k with
  | some v => m.insert k (f v)
  | none => m

def mapValues (f : κ → ν → ν) (m : AssocMap κ ν) : AssocMap κ ν :=
  ⟨m.entries.map (.map id f), m.nodupKeys.map₂ f m.entries⟩

def retain (p : κ → ν → Bool) (m : AssocMap κ ν) : AssocMap κ ν :=
  ⟨m.entries.filter fun x => p x.1 x.2, m.nodupKeys.sublist List.filter_sublist⟩

def size (m : AssocMap κ ν) : Nat := m.entries.length

@[simp]
theorem lookup_modify_self (k : κ) (f : ν → ν) (m : AssocMap κ ν)
    : (m.modify k f).lookup k = (m.lookup k).map f := by
  unfold modify
  split
  . next v h => simp [h]
  . next h => simp [h]

theorem lookup_modify_ne {k k' : κ} (h : k' ≠ k) (f : ν → ν) (m : AssocMap κ ν)
    : (m.modify k f).lookup k' = m.lookup k' := by
  unfold modify
  split
  . exact AList.lookup_insert_ne h
  . rfl

theorem lookup_modify (k k' : κ) (f : ν → ν) (m : AssocMap κ ν)
    : (m.modify k f).lookup k' = if k' = k then (m.lookup k').map f else m.lookup k' := by
  split
  next h =>
    subst h
    exact lookup_modify_self k' f m
  next h => exact lookup_modify_ne h f m

theorem lookup_insert (k k' : κ) (v : ν) (m : AssocMap κ ν)
    : (m.insert k v).lookup k' = if k' = k then some v else m.lookup k' := by
  split
  next h =>
    subst h
    exact AList.lookup_insert m
  next h => exact AList.lookup_insert_ne h

theorem entries_erase (k : κ) (m : AssocMap κ ν) : (m.erase k).entries = m.entries.kerase k := rfl

theorem lookup_erase (k k' : κ) (m : AssocMap κ ν)
    : (m.erase k).lookup k' = if k' = k then none else m.lookup k' := by
  split
  next h =>
    subst h
    exact AList.lookup_erase k' m
  next h => exact AList.lookup_erase_ne h

private theorem dlookup_map (l : List (Sigma fun _ : κ => ν)) (f : κ → ν → ν) (k : κ)
    : (l.map (.map id f) : List (Sigma fun _ : κ => ν)).dlookup k = (l.dlookup k).map (f k) := by
  induction l with
  | nil => rfl
  | cons x l ih =>
    obtain ⟨k', v⟩ := x
    by_cases h : k = k'
    . subst h
      simp [Sigma.map]
    . rw [List.map_cons, List.dlookup_cons_ne _ _ h, List.dlookup_cons_ne _ _ h]
      exact ih

@[simp]
theorem lookup_mapValues (f : κ → ν → ν) (k : κ) (m : AssocMap κ ν)
    : (m.mapValues f).lookup k = (m.lookup k).map (f k) :=
  dlookup_map m.entries f k

private theorem dlookup_filter (l : List (Sigma fun _ : κ => ν)) (hl : l.NodupKeys)
    (p : κ → ν → Bool) (k : κ)
    : (l.filter fun x => p x.1 x.2).dlookup k = (l.dlookup k).filter (p k) := by
  induction l with
  | nil => rfl
  | cons x l ih =>
    obtain ⟨k', v⟩ := x
    obtain ⟨hnot, hnodup⟩ := List.nodupKeys_cons.1 hl
    have hrest := ih hnodup
    by_cases h : k = k'
    . subst h
      have hnone : l.dlookup k = none := List.dlookup_eq_none.2 hnot
      cases hp : p k v <;> simp [hp, hrest, hnone, Option.filter]
    . rw [List.dlookup_cons_ne _ _ h]
      cases hp : p k' v
      . simpa [hp] using hrest
      . rw [List.filter_cons_of_pos (by exact hp), List.dlookup_cons_ne _ _ h]
        exact hrest

theorem erase_eq_self {k : κ} {m : AssocMap κ ν} (h : m.lookup k = none) : m.erase k = m := by
  have hkey : k ∉ m.entries.keys := AList.lookup_eq_none.1 h
  exact AList.ext (List.kerase_of_notMem_keys hkey)

theorem mapValues_eq_self {f : κ → ν → ν} {m : AssocMap κ ν} (h : ∀ k v, m.lookup k = some v → f k v = v)
    : m.mapValues f = m := by
  have hentries : m.entries.map (.map id f) = m.entries.map id := by
    refine List.map_congr_left ?_
    rintro ⟨k, v⟩ hmem
    exact congrArg (Sigma.mk k) (h k v (AList.mem_lookup_iff.2 hmem))
  exact AList.ext (hentries.trans (List.map_id _))

theorem mem_values_of_lookup {k : κ} {v : ν} {m : AssocMap κ ν} (h : m.lookup k = some v)
    : v ∈ values m :=
  List.mem_map.2 ⟨⟨k, v⟩, AList.mem_lookup_iff.1 h, rfl⟩

theorem exists_lookup_of_mem_values {v : ν} {m : AssocMap κ ν} (h : v ∈ values m)
    : ∃ k, m.lookup k = some v := by
  obtain ⟨⟨k, v⟩, hmem, rfl⟩ := List.mem_map.1 h
  exact ⟨k, AList.mem_lookup_iff.2 hmem⟩

theorem size_le_size {m m' : AssocMap κ ν} (h : ∀ k, m.lookup k = none → m'.lookup k = none) : m'.size ≤ m.size := by
  have hkeys : m'.keys ⊆ m.keys := by
    intro k hk
    by_contra hne
    exact AList.lookup_eq_none.1 (h k (AList.lookup_eq_none.2 hne)) hk
  have hlength (m : AssocMap κ ν) : m.keys.length = m.size := List.length_map ..
  rw [← hlength, ← hlength]
  exact (List.subperm_of_subset m'.keys_nodup hkeys).length_le

section All

/--
Every entry of a map satisfies `P`.
-/
def All (P : κ → ν → Prop) (m : AssocMap κ ν) : Prop := ∀ k v, m.lookup k = some v → P k v

namespace All

variable {P : κ → ν → Prop} {m : AssocMap κ ν}

theorem empty : All P (∅ : AssocMap κ ν) := by
  intro k v h
  simp at h

theorem insert {k : κ} {v : ν} (h : All P m) (hv : P k v) : All P (m.insert k v) := by
  intro k' w hw
  rw [lookup_insert] at hw
  split at hw
  next heq =>
    rw [heq, ← Option.some.inj hw]
    exact hv
  next => exact h k' w hw

theorem erase {k : κ} (h : All P m) : All P (m.erase k) := by
  intro k' w hw
  rw [lookup_erase] at hw
  split at hw
  . contradiction
  . exact h k' w hw

theorem modify {k : κ} {f : ν → ν} (h : All P m) (hf : ∀ v, m.lookup k = some v → P k v → P k (f v))
    : All P (m.modify k f) := by
  intro k' w hw
  rw [lookup_modify] at hw
  split at hw
  next heq =>
    obtain ⟨v, hv, rfl⟩ := Option.map_eq_some_iff.1 hw
    subst heq
    exact hf v hv (h k' v hv)
  next => exact h k' w hw

theorem mapValues {f : κ → ν → ν} (h : All P m) (hf : ∀ k v, m.lookup k = some v → P k v → P k (f k v))
    : All P (m.mapValues f) := by
  intro k w hw
  rw [lookup_mapValues] at hw
  obtain ⟨v, hv, rfl⟩ := Option.map_eq_some_iff.1 hw
  exact hf k v hv (h k v hv)

end All

end All

section Count

variable [DecidableEq ν]

theorem count_values_insert (k : κ) (v w : ν) (m : AssocMap κ ν)
    : (values (m.insert k v)).count w = (values (m.erase k)).count w + if v = w then 1 else 0 := by
  simp only [values, AList.entries_insert, entries_erase]
  simp [List.count_cons]

private theorem count_kerase (l : List (Sigma fun _ : κ => ν)) (k : κ) (w : ν)
    : (l.map (·.2)).count w
        = ((l.kerase k).map (·.2)).count w + if l.dlookup k = some w then 1 else 0 := by
  induction l with
  | nil => simp
  | cons x l ih =>
    obtain ⟨k', v⟩ := x
    by_cases h : k = k'
    . subst h
      simp [List.count_cons]
    . rw [List.kerase_cons_ne h, List.dlookup_cons_ne _ _ h]
      simp only [List.map_cons, List.count_cons, ih]
      omega

theorem count_values_erase (k : κ) (w : ν) (m : AssocMap κ ν)
    : (values m).count w
        = (values (m.erase k)).count w + if m.lookup k = some w then 1 else 0 :=
  count_kerase m.entries k w

end Count

@[simp]
theorem lookup_retain (p : κ → ν → Bool) (k : κ) (m : AssocMap κ ν)
    : (m.retain p).lookup k = (m.lookup k).filter (p k) :=
  dlookup_filter m.entries m.nodupKeys p k

omit [DecidableEq κ] in
theorem retain_retain (p q : κ → ν → Bool) (m : AssocMap κ ν)
    : (m.retain p).retain q = m.retain fun k v => p k v && q k v := by
  refine AList.ext ?_
  simp [retain, List.filter_filter, Bool.and_comm]

private theorem kerase_eq_filter (l : List (Sigma fun _ : κ => ν)) (hl : l.NodupKeys) (k : κ)
    : l.kerase k = l.filter fun x => x.1 ≠ k := by
  induction l with
  | nil => rfl
  | cons x l ih =>
    obtain ⟨hnot, hnodup⟩ := List.nodupKeys_cons.1 hl
    by_cases h : k = x.1
    . subst h
      have hall : ∀ y ∈ l, y.1 ≠ x.1 := fun y hy heq => hnot (heq ▸ List.mem_keys_of_mem hy)
      rw [List.kerase_cons_eq rfl, List.filter_cons_of_neg (by simp), List.filter_eq_self.2 (by simpa using hall)]
    . rw [List.kerase_cons_ne h, ih hnodup, List.filter_cons_of_pos (by simpa using Ne.symm h)]

theorem erase_eq_retain (k : κ) (m : AssocMap κ ν) : m.erase k = m.retain fun k' _ => k' ≠ k :=
  AList.ext (kerase_eq_filter m.entries m.nodupKeys k)

end AssocMap
