import Lqxp.Data.Traversal
import Lqxp.Services.Phantom.Tags
import Mathlib.Data.Finset.Card

/-!
This module contains what an update of blocks that fails leaves behind, and when that is nothing.
-/

namespace Lqxp

open Tabled Traversal

section Statements

/--
None of the next statements fails.
-/
def Calm (faults : List Bool) (statements : Nat) : Prop := true ∉ faults.take statements

variable {α : Type} {faults : List Bool} {m n : Nat} {s : PhantomTables} {query : PhantomTables → α × PhantomTables}

theorem calm_add : Calm faults (m + n) ↔ Calm faults m ∧ Calm (faults.drop m) n := by
  rw [Calm, Calm, Calm, List.take_add, List.mem_append, not_or]

theorem Calm.mono (h : Calm faults n) (hle : m ≤ n) : Calm faults m := by
  rw [← Nat.add_sub_cancel' hle, calm_add] at h
  exact h.1

theorem calm_two : Calm faults 2 ↔ Calm faults 1 ∧ Calm (faults.drop 1) 1 := calm_add (m := 1) (n := 1)

/--
The tables when some more statements have been run.
-/
def PhantomTables.skip (statements : Nat) (s : PhantomTables) : PhantomTables :=
  { s with faults := s.faults.drop statements }

@[simp]
theorem blockCount_skip (userId : String) : (s.skip n).blockCount userId = s.blockCount userId := rfl

theorem skip_skip : (s.skip m).skip n = s.skip (m + n) := by
  rw [PhantomTables.skip, PhantomTables.skip, PhantomTables.skip, List.drop_drop]

theorem tableStatement_of_calm (h : Calm s.faults 1)
    : tableStatement query s = .ok (query (s.skip 1)).1 (query (s.skip 1)).2 := by
  have hhead : s.faults.head? ≠ some true := by
    rw [Calm, List.take_one] at h
    simpa using h
  rw [tableStatement, PhantomTables.skip]
  simp only [if_neg hhead, List.drop_one]

theorem tableStatement_of_not_calm (h : ¬ Calm s.faults 1)
    : tableStatement query s = .error .internal (s.skip 1) := by
  have hhead : s.faults.head? = some true := by
    rw [Calm, List.take_one] at h
    simpa using h
  rw [tableStatement, PhantomTables.skip]
  simp only [if_pos hhead, List.drop_one]

end Statements

section Room

variable (s : PhantomTables) (userId : String)

def PhantomTables.fresh (tags : List String) : Finset String :=
  tags.toFinset.filter fun tag => s.blocks.lookup tag = none

/--
The account may store one more tag after some others.
-/
def PhantomTables.HasRoom (tags : List String) : Prop :=
  s.blockCount userId + (s.fresh tags).card < maxBlocksPerAccount

instance (tags : List String) : Decidable (s.HasRoom userId tags) :=
  inferInstanceAs (Decidable (_ < _))

/--
A tag is one of those that the account stores, of some that it asks for one after the other.
-/
def PhantomTables.Stores (tags : List String) (tag : String) : Prop :=
  s.blocks.lookup tag = none ∧ ∃ before after, tags = before ++ tag :: after ∧ s.HasRoom userId before

/--
The statements that it takes to deal with some tags to add, after some others: one asks how many there are, and
another one stores the tag if there is room.
-/
def PhantomTables.statements : List String → List String → Nat
  | _, [] => 0
  | before, tag :: tags => (if s.HasRoom userId before then 2 else 1) + statements (before ++ [tag]) tags

variable {s userId} {tags rest : List String} {tag tag' : String}

theorem mem_fresh : tag ∈ s.fresh tags ↔ tag ∈ tags ∧ s.blocks.lookup tag = none := by
  rw [PhantomTables.fresh, Finset.mem_filter, List.mem_toFinset]

theorem fresh_concat_of_mem (h : tag ∈ s.fresh tags ∨ s.blocks.lookup tag ≠ none)
    : s.fresh (tags ++ [tag]) = s.fresh tags := by
  ext tag'
  rw [mem_fresh, mem_fresh, List.mem_append, List.mem_singleton]
  constructor
  . rintro ⟨hmem | rfl, hnone⟩
    . exact ⟨hmem, hnone⟩
    . obtain hmem | hsome := h
      . exact mem_fresh.1 hmem
      . exact absurd hnone hsome
  . exact fun ⟨hmem, hnone⟩ => ⟨.inl hmem, hnone⟩

theorem card_fresh_concat (h : tag ∉ tags) (hnone : s.blocks.lookup tag = none)
    : (s.fresh (tags ++ [tag])).card = (s.fresh tags).card + 1 := by
  have hnot : tag ∉ s.fresh tags := fun hmem => h (mem_fresh.1 hmem).1
  have hinsert : s.fresh (tags ++ [tag]) = insert tag (s.fresh tags) := by
    ext tag'
    rw [Finset.mem_insert, mem_fresh, mem_fresh, List.mem_append, List.mem_singleton]
    constructor
    . rintro ⟨hmem | rfl, hnone⟩
      . exact .inr ⟨hmem, hnone⟩
      . exact .inl rfl
    . rintro (rfl | ⟨hmem, hnone⟩)
      . exact ⟨.inr rfl, hnone⟩
      . exact ⟨.inl hmem, hnone⟩
  rw [hinsert, Finset.card_insert_of_notMem hnot]

theorem PhantomTables.HasRoom.of_append (h : s.HasRoom userId (tags ++ rest)) : s.HasRoom userId tags := by
  have hsub : s.fresh tags ⊆ s.fresh (tags ++ rest) := by
    intro tag hmem
    rw [mem_fresh] at hmem ⊢
    exact ⟨List.mem_append_left _ hmem.1, hmem.2⟩
  have hcard := Finset.card_le_card hsub
  rw [PhantomTables.HasRoom] at h ⊢
  omega

theorem PhantomTables.HasRoom.stores (h : s.HasRoom userId tags) (hmem : tag ∈ tags)
    (hnone : s.blocks.lookup tag = none)
    : s.Stores userId tags tag := by
  obtain ⟨before, after, rfl⟩ := List.append_of_mem hmem
  exact ⟨hnone, before, after, rfl, h.of_append⟩

theorem PhantomTables.Stores.mem (h : s.Stores userId tags tag) : tag ∈ tags := by
  obtain ⟨-, before, after, rfl, -⟩ := h
  simp

theorem PhantomTables.Stores.append (h : s.Stores userId tags tag) : s.Stores userId (tags ++ rest) tag := by
  obtain ⟨hnone, before, after, rfl, hroom⟩ := h
  exact ⟨hnone, before, after ++ rest, by simp, hroom⟩

theorem stores_concat_iff
    : s.Stores userId (tags ++ [tag]) tag'
        ↔ s.Stores userId tags tag' ∨ (tag' = tag ∧ s.blocks.lookup tag = none ∧ s.HasRoom userId tags) := by
  constructor
  . rintro ⟨hnone, before, after, heq, hroom⟩
    obtain rfl | ⟨after, last, rfl⟩ := List.eq_nil_or_concat after
    . obtain ⟨rfl, hlast⟩ := List.append_inj' heq rfl
      obtain rfl := List.head_eq_of_cons_eq hlast
      exact .inr ⟨rfl, hnone, hroom⟩
    . rw [List.concat_eq_append, ← List.cons_append, ← List.append_assoc] at heq
      obtain ⟨rfl, -⟩ := List.append_inj' heq rfl
      exact .inl ⟨hnone, before, after, rfl, hroom⟩
  . rintro (hstores | ⟨rfl, hnone, hroom⟩)
    . exact hstores.append
    . exact ⟨hnone, tags, [], rfl, hroom⟩

end Room

section Adding

/--
The tables after some tags that the account has asked for one after the other.
-/
structure Admitted (s : PhantomTables) (userId : String) (tags : List String) (s₁ : PhantomTables) : Prop where
  stored (tag : String) : s.Stores userId tags tag → s₁.blocks.lookup tag = some userId
  other (tag : String) : ¬ s.Stores userId tags tag → s₁.blocks.lookup tag = s.blocks.lookup tag
  room : s.HasRoom userId tags → s₁.blockCount userId = s.blockCount userId + (s.fresh tags).card
  full : ¬ s.HasRoom userId tags → maxBlocksPerAccount ≤ s₁.blockCount userId

def PhantomTables.admitTag (userId tag : String) (s : PhantomTables) : PhantomTables :=
  if s.blockCount userId < maxBlocksPerAccount then s.insertOrIgnore userId tag else s

variable {s s₁ : PhantomTables} {userId tag tag' : String} {tags : List String}

theorem not_stores_nil : ¬ s.Stores userId [] tag := by
  rintro ⟨-, before, after, heq, -⟩
  simp at heq

theorem Admitted.nil (h : s₁.blocks = s.blocks) : Admitted s userId [] s₁ where
  stored _ hstores := absurd hstores not_stores_nil
  other _ _ := by rw [h]
  room _ := by
    rw [PhantomTables.blockCount, PhantomTables.blockCount, h]
    rfl
  full hfull := by
    rw [PhantomTables.HasRoom, Nat.not_lt] at hfull
    rw [PhantomTables.blockCount, h]
    exact hfull

theorem Admitted.hasRoom_iff (h : Admitted s userId tags s₁)
    : s.HasRoom userId tags ↔ s₁.blockCount userId < maxBlocksPerAccount := by
  constructor
  . intro hroom
    rw [h.room hroom]
    exact hroom
  . intro hcount
    by_contra hfull
    exact absurd hcount (Nat.not_lt.2 (h.full hfull))

theorem lookup_insertOrIgnore (h : s.blocks.lookup tag = none)
    : (s.insertOrIgnore userId tag).blocks.lookup tag'
        = if tag' = tag then some userId else s.blocks.lookup tag' := by
  rw [PhantomTables.insertOrIgnore, h]
  exact AssocMap.lookup_insert _ _ _ _

theorem blockCount_insertOrIgnore (h : s.blocks.lookup tag = none)
    : (s.insertOrIgnore userId tag).blockCount userId = s.blockCount userId + 1 := by
  rw [PhantomTables.insertOrIgnore, h]
  simp only [PhantomTables.blockCount, AssocMap.count_values_insert, AssocMap.erase_eq_self h, if_true]

theorem Admitted.insert (h : Admitted s userId tags s₁) (hroom : s.HasRoom userId tags)
    (hnone : s₁.blocks.lookup tag = none)
    : Admitted s userId (tags ++ [tag]) (s₁.insertOrIgnore userId tag) := by
  have hnot : ¬ s.Stores userId tags tag := by
    intro hstores
    rw [h.stored tag hstores] at hnone
    contradiction
  have hbefore : s.blocks.lookup tag = none := (h.other tag hnot).symm.trans hnone
  have hmem : tag ∉ tags := fun hmem => hnot (hroom.stores hmem hbefore)
  have hcount : (s₁.insertOrIgnore userId tag).blockCount userId
      = s.blockCount userId + (s.fresh (tags ++ [tag])).card := by
    rw [blockCount_insertOrIgnore hnone, h.room hroom, card_fresh_concat hmem hbefore, Nat.add_assoc]
  refine ⟨fun tag' hstores => ?_, fun tag' hother => ?_, fun _ => hcount, fun hfull => ?_⟩
  . rw [lookup_insertOrIgnore hnone]
    obtain hstores | ⟨rfl, -, -⟩ := stores_concat_iff.1 hstores
    . split
      . rfl
      . exact h.stored tag' hstores
    . rw [if_pos rfl]
  . rw [stores_concat_iff, not_or] at hother
    have hne : tag' ≠ tag := fun heq => hother.2 ⟨heq, hbefore, hroom⟩
    rw [lookup_insertOrIgnore hnone, if_neg hne]
    exact h.other tag' hother.1
  . rw [hcount]
    exact Nat.not_lt.1 hfull

theorem Admitted.ignore (h : Admitted s userId tags s₁) (hroom : s.HasRoom userId tags)
    (hsome : s₁.blocks.lookup tag ≠ none)
    : Admitted s userId (tags ++ [tag]) s₁ := by
  have hold : s.Stores userId tags tag ∨ s.blocks.lookup tag ≠ none := by
    by_cases hstores : s.Stores userId tags tag
    . exact .inl hstores
    . rw [h.other tag hstores] at hsome
      exact .inr hsome
  have hfresh : s.fresh (tags ++ [tag]) = s.fresh tags :=
    fresh_concat_of_mem (hold.imp_left fun hstores => mem_fresh.2 ⟨hstores.mem, hstores.1⟩)
  have hstores_iff (tag' : String) : s.Stores userId (tags ++ [tag]) tag' ↔ s.Stores userId tags tag' := by
    rw [stores_concat_iff, or_iff_left_iff_imp]
    rintro ⟨rfl, hnone, -⟩
    exact hold.resolve_right fun h => h hnone
  refine ⟨fun tag' hstores => ?_, fun tag' hother => ?_, fun _ => ?_, fun hfull => ?_⟩
  . exact h.stored tag' ((hstores_iff tag').1 hstores)
  . exact h.other tag' fun hstores => hother ((hstores_iff tag').2 hstores)
  . rw [hfresh]
    exact h.room hroom
  . rw [PhantomTables.HasRoom, hfresh] at hfull
    exact absurd hroom hfull

theorem Admitted.refuse (h : Admitted s userId tags s₁) (hfull : ¬ s.HasRoom userId tags)
    : Admitted s userId (tags ++ [tag]) s₁ := by
  have hstores_iff (tag' : String) : s.Stores userId (tags ++ [tag]) tag' ↔ s.Stores userId tags tag' := by
    rw [stores_concat_iff, or_iff_left_iff_imp]
    rintro ⟨-, -, hroom⟩
    exact absurd hroom hfull
  refine ⟨fun tag' hstores => ?_, fun tag' hother => ?_, fun hroom => ?_, fun _ => h.full hfull⟩
  . exact h.stored tag' ((hstores_iff tag').1 hstores)
  . exact h.other tag' fun hstores => hother ((hstores_iff tag').2 hstores)
  . exact absurd hroom.of_append hfull

theorem Admitted.admitTag (h : Admitted s userId tags s₁) (tag : String)
    : Admitted s userId (tags ++ [tag]) (s₁.admitTag userId tag) := by
  rw [PhantomTables.admitTag]
  split
  next hcount =>
    have hroom := h.hasRoom_iff.2 hcount
    cases hlookup : s₁.blocks.lookup tag with
    | none => exact h.insert hroom hlookup
    | some owner =>
      rw [PhantomTables.insertOrIgnore, hlookup]
      exact h.ignore hroom (by simp [hlookup])
  next hcount => exact h.refuse fun hroom => hcount (h.hasRoom_iff.1 hroom)

end Adding

section Steps

variable {c : Crypto} {userId ownerFp tag hint : String} {s s₁ : PhantomTables}

def PhantomTables.addStatements (userId : String) (s : PhantomTables) : Nat :=
  if s.blockCount userId < maxBlocksPerAccount then 2 else 1

theorem insertOrIgnore_skip (n : Nat) : (s.skip n).insertOrIgnore userId tag = (s.insertOrIgnore userId tag).skip n := by
  have hblocks : (s.skip n).blocks = s.blocks := rfl
  rw [PhantomTables.insertOrIgnore, PhantomTables.insertOrIgnore, hblocks]
  cases s.blocks.lookup tag with
  | none => rfl
  | some owner => rfl

theorem addBlockTag_of_calm (tag : String) (h : Calm s.faults (s.addStatements userId))
    : ∃ stored, addBlockTag userId tag s = .ok stored ((s.admitTag userId tag).skip (s.addStatements userId)) := by
  rw [PhantomTables.addStatements] at h ⊢
  rw [addBlockTag, bind_run, countBlockTags, PhantomTables.admitTag]
  split at h
  next hroom =>
    rw [calm_two] at h
    rw [tableStatement_of_calm h.1]
    dsimp only
    rw [blockCount_skip, if_neg (Nat.not_le.2 hroom), bind_run, tableStatement_of_calm h.2, if_pos hroom, if_pos hroom]
    refine ⟨true, ?_⟩
    show EStateM.Result.ok true (((s.skip 1).skip 1).insertOrIgnore userId tag) = _
    rw [skip_skip, insertOrIgnore_skip]
  next hfull =>
    rw [tableStatement_of_calm h]
    dsimp only
    rw [blockCount_skip, if_pos (Nat.not_lt.1 hfull), if_neg hfull, if_neg hfull]
    exact ⟨false, rfl⟩

theorem addBlockTag_of_not_calm (tag : String) (h : ¬ Calm s.faults (s.addStatements userId))
    : ∃ err s₁, addBlockTag userId tag s = .error err s₁ ∧ SameRows s s₁ := by
  rw [PhantomTables.addStatements] at h
  rw [addBlockTag, bind_run, countBlockTags]
  by_cases hcount : Calm s.faults 1
  . rw [tableStatement_of_calm hcount]
    dsimp only
    split at h
    next hroom =>
      rw [calm_two] at h
      have hinsert : ¬ Calm (s.skip 1).faults 1 := fun hinsert => h ⟨hcount, hinsert⟩
      rw [blockCount_skip, if_neg (Nat.not_le.2 hroom), bind_run, tableStatement_of_not_calm hinsert]
      exact ⟨_, _, rfl, rfl, rfl⟩
    next => exact absurd hcount h
  . rw [tableStatement_of_not_calm hcount]
    exact ⟨_, _, rfl, rfl, rfl⟩

/--
A hint to add is well-formed, and its statements do not fail.
-/
def AddPasses (userId hint : String) (s : PhantomTables) : Prop :=
  isHex64 hint = true ∧ Calm s.faults (s.addStatements userId)

def addEffect (c : Crypto) (userId ownerFp hint : String) (s : PhantomTables) : PhantomTables :=
  (s.admitTag userId (blockTag c ownerFp hint)).skip (s.addStatements userId)

/--
A hint to remove is well-formed, and its statement does not fail.
-/
def RemovePasses (hint : String) (s : PhantomTables) : Prop := isHex64 hint = true ∧ Calm s.faults 1

def removeEffect (c : Crypto) (userId ownerFp hint : String) (s : PhantomTables) : PhantomTables :=
  (s.skip 1).deleteTag userId (blockTag c ownerFp hint)

theorem addBlock_steps
    : Steps (AddPasses userId) (addEffect c userId ownerFp) SameRows (addBlock c userId ownerFp) where
  pass hint s h := by
    obtain ⟨stored, hrun⟩ := addBlockTag_of_calm (blockTag c ownerFp hint) h.2
    rw [addBlock, h.1]
    show (addBlockTag userId (blockTag c ownerFp hint) >>= fun _ => pure ()) s = _
    rw [bind_run, hrun]
    rfl
  fail hint s h := by
    rw [addBlock]
    by_cases hhint : isHex64 hint = true
    . obtain ⟨err, s₁, hrun, hsame⟩ :=
        addBlockTag_of_not_calm (blockTag c ownerFp hint) fun hcalm => h ⟨hhint, hcalm⟩
      rw [hhint]
      refine ⟨err, s₁, ?_, hsame⟩
      show (addBlockTag userId (blockTag c ownerFp hint) >>= fun _ => pure ()) s = _
      rw [bind_run, hrun]
    . rw [Bool.not_eq_true] at hhint
      rw [hhint]
      exact ⟨_, s, rfl, SameRows.refl s⟩

theorem removeBlock_steps
    : Steps RemovePasses (removeEffect c userId ownerFp) SameRows (removeBlock c userId ownerFp) where
  pass hint s h := by
    rw [removeBlock, h.1]
    show tableStatement (fun s => ((), s.deleteTag userId (blockTag c ownerFp hint))) s = _
    rw [tableStatement_of_calm h.2]
    rfl
  fail hint s h := by
    rw [removeBlock]
    by_cases hhint : isHex64 hint = true
    . rw [hhint]
      refine ⟨.internal, s.skip 1, ?_, rfl, rfl⟩
      show tableStatement (fun s => ((), s.deleteTag userId (blockTag c ownerFp hint))) s = _
      rw [tableStatement_of_not_calm fun hcalm => h ⟨hhint, hcalm⟩]
    . rw [Bool.not_eq_true] at hhint
      rw [hhint]
      exact ⟨_, s, rfl, SameRows.refl s⟩

end Steps

section Loops

variable {c : Crypto} {userId ownerFp : String} {s s₁ : PhantomTables} {before hints : List String}

/--
The tables that hints to add and then hints to remove leave behind.
-/
def PhantomTables.addAll (c : Crypto) (userId ownerFp : String) (hints : List String) (s : PhantomTables)
    : PhantomTables :=
  hints.foldl (fun s hint => addEffect c userId ownerFp hint s) s

def PhantomTables.removeAll (c : Crypto) (userId ownerFp : String) (hints : List String) (s : PhantomTables)
    : PhantomTables :=
  hints.foldl (fun s hint => removeEffect c userId ownerFp hint s) s

theorem Admitted.addStatements_eq (h : Admitted s userId before s₁)
    : s₁.addStatements userId = if s.HasRoom userId before then 2 else 1 := by
  rw [PhantomTables.addStatements]
  exact if_congr h.hasRoom_iff.symm rfl rfl

theorem faults_admitTag (userId tag : String) (s : PhantomTables) : (s.admitTag userId tag).faults = s.faults := by
  rw [PhantomTables.admitTag, PhantomTables.insertOrIgnore]
  split
  . split
    . rfl
    . rfl
  . rfl

theorem Admitted.addEffect (h : Admitted s userId before s₁) (hint : String)
    : Admitted s userId (before ++ [blockTag c ownerFp hint]) (addEffect c userId ownerFp hint s₁) := by
  obtain ⟨stored, other, room, full⟩ := h.admitTag (blockTag c ownerFp hint)
  exact ⟨stored, other, room, full⟩

theorem allPass_add_iff (h : Admitted s userId before s₁)
    : AllPass (AddPasses userId) (addEffect c userId ownerFp) hints s₁
        ↔ (∀ hint ∈ hints, isHex64 hint = true)
          ∧ Calm s₁.faults (s.statements userId before (tagsOf c ownerFp hints)) := by
  induction hints generalizing before s₁ with
  | nil => simp [AllPass, tagsOf, PhantomTables.statements, Calm]
  | cons hint hints ih =>
    have hfaults : (addEffect c userId ownerFp hint s₁).faults = s₁.faults.drop (s₁.addStatements userId) := by
      show ((s₁.admitTag userId _).faults).drop _ = _
      rw [faults_admitTag]
    rw [AllPass, ih (h.addEffect hint), AddPasses, List.forall_mem_cons, hfaults]
    show _ ↔ _ ∧ Calm s₁.faults (_ + s.statements userId _ (tagsOf c ownerFp hints))
    rw [calm_add, ← h.addStatements_eq]
    constructor
    . rintro ⟨⟨hhint, hcalm⟩, hhints, hrest⟩
      exact ⟨⟨hhint, hhints⟩, hcalm, hrest⟩
    . rintro ⟨⟨hhint, hhints⟩, hcalm, hrest⟩
      exact ⟨⟨hhint, hcalm⟩, hhints, hrest⟩

theorem Admitted.addAll (h : Admitted s userId before s₁) (c : Crypto) (ownerFp : String) (hints : List String)
    : Admitted s userId (before ++ tagsOf c ownerFp hints) (s₁.addAll c userId ownerFp hints)
        ∧ (s₁.addAll c userId ownerFp hints).faults
          = s₁.faults.drop (s.statements userId before (tagsOf c ownerFp hints)) := by
  induction hints generalizing before s₁ with
  | nil =>
    rw [tagsOf, List.map_nil, List.append_nil]
    exact ⟨h, rfl⟩
  | cons hint hints ih =>
    obtain ⟨hadmitted, hfaults⟩ := ih (h.addEffect hint)
    rw [List.append_assoc] at hadmitted
    refine ⟨hadmitted, hfaults.trans ?_⟩
    show (((s₁.admitTag userId _).faults).drop _).drop _ = s₁.faults.drop (_ + _)
    rw [faults_admitTag, List.drop_drop, h.addStatements_eq]
    rfl

theorem faults_deleteTag (userId tag : String) (s : PhantomTables) : (s.deleteTag userId tag).faults = s.faults := by
  rw [PhantomTables.deleteTag]
  split
  . rfl
  . rfl

theorem lookup_deleteTag (userId tag tag' : String) (s : PhantomTables)
    : (s.deleteTag userId tag).blocks.lookup tag'
        = if tag' = tag ∧ s.blocks.lookup tag' = some userId then none else s.blocks.lookup tag' := by
  rw [PhantomTables.deleteTag]
  by_cases heq : tag' = tag
  . subst heq
    by_cases hown : s.blocks.lookup tag' = some userId
    . rw [if_pos hown, if_pos ⟨rfl, hown⟩]
      exact AList.lookup_erase tag' s.blocks
    . rw [if_neg hown, if_neg fun h => hown h.2]
  . have hneg : ¬ (tag' = tag ∧ s.blocks.lookup tag' = some userId) := fun h => heq h.1
    rw [if_neg hneg]
    split
    . exact AList.lookup_erase_ne heq
    . rfl

theorem allPass_remove_iff
    : AllPass RemovePasses (removeEffect c userId ownerFp) hints s
        ↔ (∀ hint ∈ hints, isHex64 hint = true) ∧ Calm s.faults hints.length := by
  induction hints generalizing s with
  | nil => simp [AllPass, Calm]
  | cons hint hints ih =>
    have hfaults : (removeEffect c userId ownerFp hint s).faults = s.faults.drop 1 := faults_deleteTag _ _ _
    rw [AllPass, ih, RemovePasses, List.forall_mem_cons, hfaults, List.length_cons, Nat.add_comm hints.length, calm_add]
    constructor
    . rintro ⟨⟨hhint, hcalm⟩, hhints, hrest⟩
      exact ⟨⟨hhint, hhints⟩, hcalm, hrest⟩
    . rintro ⟨⟨hhint, hhints⟩, hcalm, hrest⟩
      exact ⟨⟨hhint, hcalm⟩, hhints, hrest⟩

theorem lookup_removeAll (tag : String)
    : (s.removeAll c userId ownerFp hints).blocks.lookup tag
        = if tag ∈ tagsOf c ownerFp hints ∧ s.blocks.lookup tag = some userId then none else s.blocks.lookup tag := by
  induction hints generalizing s with
  | nil => simp [PhantomTables.removeAll, tagsOf]
  | cons hint hints ih =>
    have hhead : (removeEffect c userId ownerFp hint s).blocks.lookup tag
        = if tag = blockTag c ownerFp hint ∧ s.blocks.lookup tag = some userId then none else s.blocks.lookup tag :=
      lookup_deleteTag userId _ tag (s.skip 1)
    show (PhantomTables.removeAll c userId ownerFp hints (removeEffect c userId ownerFp hint s)).blocks.lookup tag = _
    rw [ih, hhead]
    by_cases hown : s.blocks.lookup tag = some userId
    . by_cases heq : tag = blockTag c ownerFp hint
      . simp [tagsOf, heq]
      . simp [tagsOf, heq, hown]
    . simp [hown]

theorem faults_removeAll
    : (s.removeAll c userId ownerFp hints).faults = s.faults.drop hints.length := by
  induction hints generalizing s with
  | nil => rfl
  | cons hint hints ih =>
    have hhead : (removeEffect c userId ownerFp hint s).faults = s.faults.drop 1 := faults_deleteTag _ _ _
    show (PhantomTables.removeAll c userId ownerFp hints (removeEffect c userId ownerFp hint s)).faults = _
    rw [ih, hhead, List.drop_drop, List.length_cons, Nat.add_comm]

end Loops

section Updates

variable {c : Crypto} {s : PhantomTables} {userId ownerFp : String} {add remove A R A' R' : List String}

/--
Some of the hints are dealt with: they and those before them are well-formed, and no statement up to theirs fails.
-/
structure DealtWith (c : Crypto) (s : PhantomTables) (userId ownerFp : String) (add remove A R : List String)
    : Prop where
  added : A <+: add
  removed : R <+: remove
  order : R = [] ∨ A = add
  wellFormed : (∀ hint ∈ A, isHex64 hint = true) ∧ ∀ hint ∈ R, isHex64 hint = true
  calm : Calm s.faults (1 + s.statements userId [] (tagsOf c ownerFp A) + R.length)

/--
All hints are dealt with, and the last statement does not fail either.
-/
structure Completes (c : Crypto) (s : PhantomTables) (userId ownerFp : String) (add remove : List String)
    : Prop where
  dealtWith : DealtWith c s userId ownerFp add remove add remove
  calm : Calm s.faults (1 + s.statements userId [] (tagsOf c ownerFp add) + remove.length + 1)

def PhantomTables.leave (c : Crypto) (userId ownerFp : String) (A R : List String) (s : PhantomTables)
    : PhantomTables :=
  ((s.skip 1).addAll c userId ownerFp A).removeAll c userId ownerFp R

theorem admitted_start : Admitted s userId [] (s.skip 1) := .nil rfl

theorem dealtWith_iff (hadd : A <+: add) (hremove : R <+: remove) (horder : R = [] ∨ A = add)
    : DealtWith c s userId ownerFp add remove A R
        ↔ Calm s.faults 1 ∧ AllPass (AddPasses userId) (addEffect c userId ownerFp) A (s.skip 1)
          ∧ AllPass RemovePasses (removeEffect c userId ownerFp) R ((s.skip 1).addAll c userId ownerFp A) := by
  have hfaults := ((admitted_start : Admitted s userId [] _).addAll c ownerFp A).2
  rw [allPass_add_iff admitted_start, allPass_remove_iff, hfaults]
  show _ ↔ _ ∧ (_ ∧ Calm (s.faults.drop 1) _) ∧ _ ∧ Calm ((s.faults.drop 1).drop _) _
  constructor
  . rintro ⟨-, -, -, ⟨hA, hR⟩, hcalm⟩
    rw [calm_add, calm_add, ← List.drop_drop] at hcalm
    exact ⟨hcalm.1.1, ⟨hA, hcalm.1.2⟩, hR, hcalm.2⟩
  . rintro ⟨hfirst, ⟨hA, hadds⟩, hR, hremoves⟩
    refine ⟨hadd, hremove, horder, ⟨hA, hR⟩, ?_⟩
    rw [calm_add, calm_add, ← List.drop_drop]
    exact ⟨⟨hfirst, hadds⟩, hremoves⟩

theorem DealtWith.passes (h : DealtWith c s userId ownerFp add remove A R)
    : Calm s.faults 1 ∧ AllPass (AddPasses userId) (addEffect c userId ownerFp) A (s.skip 1)
        ∧ AllPass RemovePasses (removeEffect c userId ownerFp) R ((s.skip 1).addAll c userId ownerFp A) :=
  (dealtWith_iff h.added h.removed h.order).1 h

/--
These are all the hints that are dealt with.
-/
structure Greatest (c : Crypto) (s : PhantomTables) (userId ownerFp : String) (add remove A R : List String)
    : Prop where
  dealtWith : DealtWith c s userId ownerFp add remove A R
  greatest (A' R' : List String) : DealtWith c s userId ownerFp add remove A' R' → A' <+: A ∧ R' <+: R

theorem lookup_leave (tag : String)
    : (s.leave c userId ownerFp A R).blocks.lookup tag = s.blocks.lookup tag
        ↔ (tag ∈ tagsOf c ownerFp R → s.blocks.lookup tag ≠ some userId)
          ∧ (s.Stores userId (tagsOf c ownerFp A) tag → tag ∈ tagsOf c ownerFp R) := by
  have hadmitted := ((admitted_start : Admitted s userId [] _).addAll c ownerFp A).1
  rw [List.nil_append] at hadmitted
  rw [PhantomTables.leave, lookup_removeAll]
  by_cases hstores : s.Stores userId (tagsOf c ownerFp A) tag
  . rw [hadmitted.stored tag hstores, hstores.1]
    by_cases hmem : tag ∈ tagsOf c ownerFp R
    . simp [hmem]
    . simp [hmem, hstores]
  . rw [hadmitted.other tag hstores]
    by_cases hmem : tag ∈ tagsOf c ownerFp R
    . by_cases hown : s.blocks.lookup tag = some userId
      . simp [hmem, hown]
      . simp [hmem, hown]
    . simp [hmem, hstores]

theorem ownerFingerprint_of_calm (hfp : s.publishedFp c userId = some ownerFp) (hcalm : Calm s.faults 1)
    : ownerFingerprint c userId s = .ok ownerFp (s.skip 1) := by
  have hprekeys : (s.skip 1).prekeys = s.prekeys := rfl
  rw [ownerFingerprint, bind_run, getPrekeyByUserId, tableStatement_of_calm hcalm]
  simp only [hprekeys]
  rw [PhantomTables.publishedFp] at hfp
  cases hbundle : s.prekeys.lookup userId with
  | none =>
    rw [hbundle] at hfp
    contradiction
  | some bundle =>
    rw [hbundle, Option.bind_some] at hfp
    dsimp only at hfp ⊢
    cases hdecode : fingerprintOfMlkemHex c bundle.mlkem768Pk with
    | error panic =>
      rw [hdecode] at hfp
      contradiction
    | ok decoded =>
      rw [hdecode] at hfp
      dsimp only at hfp
      subst hfp
      rfl

theorem ownerFingerprint_of_not_calm (hcalm : ¬ Calm s.faults 1)
    : ownerFingerprint c userId s = .error .internal (s.skip 1) := by
  rw [ownerFingerprint, bind_run, getPrekeyByUserId, tableStatement_of_not_calm hcalm]

theorem updateBlocks_of_ownerFingerprint (h : ownerFingerprint c userId s = .ok ownerFp (s.skip 1))
    : updateBlocks c userId add remove s
        = match add.forM (addBlock c userId ownerFp) (s.skip 1) with
          | .error err s₁ => .error err s₁
          | .ok _ s₁ =>
            match remove.forM (removeBlock c userId ownerFp) s₁ with
            | .error err s₂ => .error err s₂
            | .ok _ s₂ => listBlockTags userId s₂ := by
  rw [updateBlocks, bind_run, h]
  dsimp only
  rw [bind_run]
  cases add.forM (addBlock c userId ownerFp) (s.skip 1) with
  | error err s₁ => rfl
  | ok u s₁ =>
    dsimp only
    rw [bind_run]
    cases remove.forM (removeBlock c userId ownerFp) s₁ with
    | error err s₂ => rfl
    | ok u s₂ => rfl

theorem faults_leave
    : (s.leave c userId ownerFp A R).faults
        = s.faults.drop (1 + s.statements userId [] (tagsOf c ownerFp A) + R.length) := by
  have hfaults := ((admitted_start : Admitted s userId [] _).addAll c ownerFp A).2
  rw [PhantomTables.leave, faults_removeAll, hfaults]
  show ((s.faults.drop 1).drop _).drop _ = _
  rw [List.drop_drop, List.drop_drop, Nat.add_assoc]

theorem greatest_of_removed (hcalm : Calm s.faults 1)
    (hadd : AllPass (AddPasses userId) (addEffect c userId ownerFp) add (s.skip 1))
    (hreached : Reached RemovePasses (removeEffect c userId ownerFp) remove ((s.skip 1).addAll c userId ownerFp add) R)
    : Greatest c s userId ownerFp add remove add R where
  dealtWith := (dealtWith_iff (List.prefix_refl _) hreached.isPrefix (.inr rfl)).2 ⟨hcalm, hadd, hreached.allPass⟩
  greatest A' R' h := by
    refine ⟨h.added, ?_⟩
    obtain rfl | rfl := h.order
    . exact List.nil_prefix
    . exact hreached.longest R' h.removed h.passes.2.2

theorem greatest_of_added (hcalm : Calm s.faults 1)
    (hadd : ¬ AllPass (AddPasses userId) (addEffect c userId ownerFp) add (s.skip 1))
    (hreached : Reached (AddPasses userId) (addEffect c userId ownerFp) add (s.skip 1) A)
    : Greatest c s userId ownerFp add remove A [] where
  dealtWith := (dealtWith_iff hreached.isPrefix List.nil_prefix (.inl rfl)).2 ⟨hcalm, hreached.allPass, trivial⟩
  greatest A' R' h := by
    refine ⟨hreached.longest A' h.added h.passes.2.1, ?_⟩
    obtain rfl | rfl := h.order
    . exact List.nil_prefix
    . exact absurd h.passes.2.1 hadd

theorem updateBlocks_run (add remove : List String) (hfp : s.publishedFp c userId = some ownerFp) (hcalm : Calm s.faults 1)
    : (Completes c s userId ownerFp add remove ∧ succeeds (updateBlocks c userId add remove s) = true)
        ∨ ∃ A R, Greatest c s userId ownerFp add remove A R ∧ ¬ Completes c s userId ownerFp add remove
          ∧ succeeds (updateBlocks c userId add remove s) = false
          ∧ SameRows (s.leave c userId ownerFp A R) (final (updateBlocks c userId add remove s)) := by
  rw [updateBlocks_of_ownerFingerprint (ownerFingerprint_of_calm hfp hcalm)]
  by_cases hadd : AllPass (AddPasses userId) (addEffect c userId ownerFp) add (s.skip 1)
  . rw [forM_of_allPass addBlock_steps hadd]
    dsimp only
    by_cases hremove
        : AllPass RemovePasses (removeEffect c userId ownerFp) remove ((s.skip 1).addAll c userId ownerFp add)
    . have hall : Greatest c s userId ownerFp add remove add remove :=
        greatest_of_removed hcalm hadd ⟨List.prefix_refl _, hremove, fun _ hbegins _ => hbegins⟩
      have hrun := forM_of_allPass removeBlock_steps hremove
      rw [PhantomTables.addAll] at hrun
      rw [hrun]
      show (_ ∧ succeeds (listBlockTags userId (s.leave c userId ownerFp add remove)) = true) ∨ _
      by_cases hlast : Calm (s.leave c userId ownerFp add remove).faults 1
      . refine .inl ⟨⟨hall.dealtWith, ?_⟩, ?_⟩
        . rw [faults_leave] at hlast
          exact calm_add.2 ⟨hall.dealtWith.calm, hlast⟩
        . rw [listBlockTags, tableStatement_of_calm hlast]
          rfl
      . refine .inr ⟨add, remove, hall, ?_, ?_⟩
        . intro hcompletes
          rw [faults_leave] at hlast
          exact hlast (calm_add.1 hcompletes.calm).2
        . show succeeds (listBlockTags userId (s.leave c userId ownerFp add remove)) = false
            ∧ SameRows _ (final (listBlockTags userId (s.leave c userId ownerFp add remove)))
          rw [listBlockTags, tableStatement_of_not_calm hlast]
          exact ⟨rfl, rfl, rfl⟩
    . obtain ⟨R, err, s', hreached, hrun, hsame⟩ :=
        forM_of_not_allPass removeBlock_steps hremove
      rw [PhantomTables.addAll] at hrun
      rw [hrun]
      refine .inr ⟨add, R, greatest_of_removed hcalm hadd hreached, ?_, rfl, hsame⟩
      exact fun hcompletes => hremove hcompletes.dealtWith.passes.2.2
  . obtain ⟨A, err, s', hreached, hrun, hsame⟩ :=
      forM_of_not_allPass addBlock_steps hadd
    rw [hrun]
    refine .inr ⟨A, [], greatest_of_added hcalm hadd hreached, ?_, rfl, hsame⟩
    exact fun hcompletes => hadd hcompletes.dealtWith.passes.2.1

/--
What the hints that are dealt with do to the rows comes to nothing.
-/
structure Unchanging (c : Crypto) (s : PhantomTables) (userId ownerFp : String) (add remove : List String)
    : Prop where
  notOwn (A R : List String) (tag : String) : DealtWith c s userId ownerFp add remove A R →
    tag ∈ tagsOf c ownerFp R → s.blocks.lookup tag ≠ some userId
  undone (A R : List String) (tag : String) : DealtWith c s userId ownerFp add remove A R →
    s.Stores userId (tagsOf c ownerFp A) tag →
      ∃ A' R', DealtWith c s userId ownerFp add remove A' R' ∧ tag ∈ tagsOf c ownerFp R'

theorem DealtWith.calm_one (h : DealtWith c s userId ownerFp add remove A R) : Calm s.faults 1 := h.passes.1

theorem mem_tagsOf_of_beginning {tag : String} (hbegins : A' <+: A) (h : tag ∈ tagsOf c ownerFp A')
    : tag ∈ tagsOf c ownerFp A :=
  (hbegins.map _).subset h

theorem PhantomTables.Stores.of_beginning {tag : String} (hbegins : A' <+: A)
    (h : s.Stores userId (tagsOf c ownerFp A') tag)
    : s.Stores userId (tagsOf c ownerFp A) tag := by
  obtain ⟨rest, rfl⟩ := hbegins
  rw [tagsOf, List.map_append]
  exact h.append

theorem Greatest.unchanging_iff (h : Greatest c s userId ownerFp add remove A R)
    : Unchanging c s userId ownerFp add remove
        ↔ ∀ tag, (s.leave c userId ownerFp A R).blocks.lookup tag = s.blocks.lookup tag := by
  simp only [lookup_leave]
  constructor
  . intro hunchanging tag
    refine ⟨hunchanging.notOwn A R tag h.dealtWith, fun hstores => ?_⟩
    obtain ⟨A', R', hdealt, hmem⟩ := hunchanging.undone A R tag h.dealtWith hstores
    exact mem_tagsOf_of_beginning (h.greatest A' R' hdealt).2 hmem
  . intro hsame
    refine ⟨fun A' R' tag hdealt hmem => ?_, fun A' R' tag hdealt hstores => ?_⟩
    . exact (hsame tag).1 (mem_tagsOf_of_beginning (h.greatest A' R' hdealt).2 hmem)
    . exact ⟨A, R, h.dealtWith, (hsame tag).2 (hstores.of_beginning (h.greatest A' R' hdealt).1)⟩

/--
An update that fails has left all rows as they were exactly if what it has dealt with comes to nothing.
-/
theorem blocks_unchanged_iff
    : (∀ err s', updateBlocks c userId add remove s = .error err s' →
          ∀ tag, s'.blocks.lookup tag = s.blocks.lookup tag)
        ↔ ∀ ownerFp, s.publishedFp c userId = some ownerFp →
          Completes c s userId ownerFp add remove ∨ Unchanging c s userId ownerFp add remove := by
  constructor
  . intro hsame ownerFp hfp
    by_cases hcalm : Calm s.faults 1
    . obtain ⟨hcompletes, -⟩ | ⟨A, R, hgreatest, -, hfails, hleft⟩ :=
        updateBlocks_run add remove hfp hcalm
      . exact .inl hcompletes
      . refine .inr (hgreatest.unchanging_iff.2 fun tag => ?_)
        cases hrun : updateBlocks c userId add remove s with
        | ok filter s' =>
          rw [hrun] at hfails
          contradiction
        | error err s' =>
          rw [hrun] at hleft
          rw [← hleft.blocks]
          exact hsame err s' hrun tag
    . refine .inr ⟨fun A R tag hdealt => ?_, fun A R tag hdealt => ?_⟩
      . exact absurd hdealt.calm_one hcalm
      . exact absurd hdealt.calm_one hcalm
  . intro hcondition err s' hrun tag
    obtain ⟨s₁, hsame, ⟨err', hfp⟩ | ⟨ownerFp, hfp, -⟩⟩ := ownerFingerprint_cases c userId s
    . rw [updateBlocks, bind_run, hfp] at hrun
      obtain ⟨-, rfl⟩ := EStateM.Result.error.inj hrun
      rw [hsame.blocks]
    . by_cases hcalm : Calm s.faults 1
      . obtain ⟨-, hsucceeds⟩ | ⟨A, R, hgreatest, hnot, -, hleft⟩ :=
          updateBlocks_run add remove hfp hcalm
        . rw [hrun] at hsucceeds
          contradiction
        . rw [hrun] at hleft
          have hunchanging := (hcondition ownerFp hfp).resolve_left hnot
          have hblocks : s'.blocks = (s.leave c userId ownerFp A R).blocks := hleft.blocks
          rw [hblocks]
          exact hgreatest.unchanging_iff.1 hunchanging tag
      . rw [updateBlocks, bind_run, ownerFingerprint_of_not_calm hcalm] at hrun
        obtain ⟨-, rfl⟩ := EStateM.Result.error.inj hrun
        rfl

def aliceTables : PhantomTables where
  prekeys := AList.insert "alice"
    { version := 1, mlkem768Pk := "aa", ecdsaP256Pk := .null, mldsa65Pk := "", sigEcdsa := "", sigMldsa := "",
      updatedAt := 0 } ∅

/--
A malformed hint comes after a well-formed one, whose tag stays stored when the update is refused.
-/
theorem not_unchanged_after_malformed
    : ¬ ∀ err s', updateBlocks .simple "alice" ["".pushn 'a' 64, "malformed"] [] aliceTables = .error err s' →
        ∀ tag, s'.blocks.lookup tag = aliceTables.blocks.lookup tag := by
  intro h
  have hrun : (match updateBlocks .simple "alice" ["".pushn 'a' 64, "malformed"] [] aliceTables with
      | .ok _ _ => none
      | .error err s' => s'.blocks.lookup (blockTag .simple (fingerprintOf .simple [0xaa]) ("".pushn 'a' 64)))
      = some "alice" := by
    decide +kernel
  split at hrun
  . contradiction
  next err s' heq =>
    rw [h err s' heq] at hrun
    revert hrun
    decide +kernel

end Updates

end Lqxp
