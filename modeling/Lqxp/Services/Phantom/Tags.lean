import Lqxp.Services.Phantom.Blocks

/-!
This module contains what one update of blocks can do to the table of tags.
-/

namespace Lqxp

namespace Tabled

variable {α β : Type}

/--
The tables after a call, whether it fails or not.
-/
def final : EStateM.Result ApiError PhantomTables α → PhantomTables
  | .ok _ s => s
  | .error _ s => s

def succeeds : EStateM.Result ApiError PhantomTables α → Bool
  | .ok _ _ => true
  | .error _ _ => false

theorem bind_run (x : Tabled α) (f : α → Tabled β) (s : PhantomTables)
    : (x >>= f) s
        = match x s with
          | .ok a s₁ => f a s₁
          | .error err s₁ => .error err s₁ := by
  cases h : x s <;> simp only [bind, EStateM.bind, h]

end Tabled

open Tabled

/--
The rows of both tables are the same.
-/
structure SameRows (s s' : PhantomTables) : Prop where
  prekeys : s'.prekeys = s.prekeys
  blocks : s'.blocks = s.blocks

variable {α : Type} {s s' : PhantomTables} {userId tag : String}

theorem SameRows.refl (s : PhantomTables) : SameRows s s := ⟨rfl, rfl⟩

theorem SameRows.trans {s₁ : PhantomTables} (h : SameRows s s₁) (h' : SameRows s₁ s') : SameRows s s' :=
  ⟨h'.prekeys.trans h.prekeys, h'.blocks.trans h.blocks⟩

/--
Some of the tags may have been stored by the account, each of them where there was no row.
-/
structure Added (tags : List String) (userId : String) (s s' : PhantomTables) : Prop where
  prekeys : s'.prekeys = s.prekeys
  count : s.blockCount userId ≤ s'.blockCount userId
  blocks : ∀ tag, s'.blocks.lookup tag = s.blocks.lookup tag
    ∨ (tag ∈ tags ∧ s.blocks.lookup tag = none ∧ s'.blocks.lookup tag = some userId
        ∧ s.blockCount userId < maxBlocksPerAccount)

/--
Some of the tags may have been removed, each of them where the row was one of the account.
-/
structure Removed (tags : List String) (userId : String) (s s' : PhantomTables) : Prop where
  prekeys : s'.prekeys = s.prekeys
  blocks : ∀ tag, s'.blocks.lookup tag = s.blocks.lookup tag
    ∨ (tag ∈ tags ∧ s.blocks.lookup tag = some userId ∧ s'.blocks.lookup tag = none)

theorem SameRows.added (h : SameRows s s') (tags : List String) (userId : String)
    : Added tags userId s s' where
  prekeys := h.prekeys
  count := by rw [PhantomTables.blockCount, PhantomTables.blockCount, h.blocks]
  blocks tag := .inl (by rw [h.blocks])

theorem SameRows.removed (h : SameRows s s') (tags : List String) (userId : String)
    : Removed tags userId s s' where
  prekeys := h.prekeys
  blocks tag := .inl (by rw [h.blocks])

theorem Added.mono {tags tags' : List String} (h : Added tags userId s s') (hsub : tags ⊆ tags')
    : Added tags' userId s s' where
  prekeys := h.prekeys
  count := h.count
  blocks tag := (h.blocks tag).imp_right fun ⟨hmem, hrest⟩ => ⟨hsub hmem, hrest⟩

theorem Removed.mono {tags tags' : List String} (h : Removed tags userId s s') (hsub : tags ⊆ tags')
    : Removed tags' userId s s' where
  prekeys := h.prekeys
  blocks tag := (h.blocks tag).imp_right fun ⟨hmem, hrest⟩ => ⟨hsub hmem, hrest⟩

theorem Added.trans {tags : List String} {s₁ : PhantomTables} (h : Added tags userId s s₁)
    (h' : Added tags userId s₁ s') : Added tags userId s s' where
  prekeys := h'.prekeys.trans h.prekeys
  count := h.count.trans h'.count
  blocks tag := by
    obtain hsame | ⟨hmem, hnone, hsome, hquota⟩ := h.blocks tag
    . obtain hsame' | ⟨hmem, hnone, hsome, hquota⟩ := h'.blocks tag
      . exact .inl (hsame'.trans hsame)
      . exact .inr ⟨hmem, hsame ▸ hnone, hsome, Nat.lt_of_le_of_lt h.count hquota⟩
    . obtain hsame' | ⟨-, hnone', -⟩ := h'.blocks tag
      . exact .inr ⟨hmem, hnone, hsame'.trans hsome, hquota⟩
      . rw [hsome] at hnone'
        contradiction

theorem Removed.trans {tags : List String} {s₁ : PhantomTables} (h : Removed tags userId s s₁)
    (h' : Removed tags userId s₁ s') : Removed tags userId s s' where
  prekeys := h'.prekeys.trans h.prekeys
  blocks tag := by
    obtain hsame | ⟨hmem, hown, hgone⟩ := h.blocks tag
    . rw [← hsame]
      exact h'.blocks tag
    . obtain hsame' | ⟨-, hown', -⟩ := h'.blocks tag
      . exact .inr ⟨hmem, hown, hsame'.trans hgone⟩
      . rw [hgone] at hown'
        contradiction

theorem tableStatement_cases (query : PhantomTables → α × PhantomTables) (s : PhantomTables)
    : ∃ rest, SameRows s rest
        ∧ (tableStatement query s = .error .internal rest
            ∨ tableStatement query s = .ok (query rest).1 (query rest).2) := by
  refine ⟨{ s with faults := s.faults.tail }, ⟨rfl, rfl⟩, ?_⟩
  simp only [tableStatement]
  split
  . exact .inl rfl
  . exact .inr rfl

theorem added_insertOrIgnore (tag : String) (hquota : s.blockCount userId < maxBlocksPerAccount)
    : Added [tag] userId s (s.insertOrIgnore userId tag) := by
  rw [PhantomTables.insertOrIgnore]
  split
  . exact (SameRows.refl s).added _ _
  next hnone =>
    refine ⟨rfl, ?_, fun tag' => ?_⟩
    . have herase := AssocMap.count_values_erase tag userId s.blocks
      simp only [PhantomTables.blockCount, AssocMap.count_values_insert, if_true]
      split at herase <;> omega
    . rw [AssocMap.lookup_insert]
      split
      next heq =>
        subst heq
        exact .inr ⟨.head _, hnone, rfl, hquota⟩
      next => exact .inl rfl

theorem added_addBlockTag (userId tag : String) (s : PhantomTables)
    : Added [tag] userId s (final (addBlockTag userId tag s)) := by
  rw [addBlockTag, bind_run]
  obtain ⟨s₁, hsame, hcount | hcount⟩ := tableStatement_cases (fun s => (s.blockCount userId, s)) s
  all_goals rw [countBlockTags, hcount]
  . exact hsame.added _ _
  . dsimp only
    split
    . exact hsame.added _ _
    next hquota =>
      rw [bind_run]
      obtain ⟨s₂, hsame₂, hinsert | hinsert⟩ :=
        tableStatement_cases (fun s => ((), s.insertOrIgnore userId tag)) s₁
      all_goals rw [hinsert]
      . exact (hsame.trans hsame₂).added _ _
      . refine ((hsame.trans hsame₂).added _ _).trans (added_insertOrIgnore tag ?_)
        rw [PhantomTables.blockCount, hsame₂.blocks]
        exact Nat.not_le.1 hquota

theorem removed_deleteTag (tag : String) : Removed [tag] userId s (s.deleteTag userId tag) := by
  rw [PhantomTables.deleteTag]
  split
  next hown =>
    refine ⟨rfl, fun tag' => ?_⟩
    rw [AssocMap.lookup_erase]
    split
    next heq =>
      subst heq
      exact .inr ⟨.head _, hown, rfl⟩
    next => exact .inl rfl
  next => exact (SameRows.refl s).removed _ _

theorem not_own_deleteTag (s : PhantomTables) (userId tag : String)
    : (s.deleteTag userId tag).blocks.lookup tag ≠ some userId := by
  rw [PhantomTables.deleteTag]
  split
  . simp
  . assumption

variable {c : Crypto} {ownerFp : String}

theorem added_addBlock (userId ownerFp hint : String) (s : PhantomTables)
    : Added [blockTag c ownerFp hint] userId s (final (addBlock c userId ownerFp hint s)) := by
  rw [addBlock]
  split
  . exact (SameRows.refl s).added _ _
  . dsimp only
    rw [bind_run]
    have hadded := added_addBlockTag userId (blockTag c ownerFp hint) s
    split
    next h => rwa [h] at hadded
    next h => rwa [h] at hadded

theorem removed_removeBlock (userId ownerFp hint : String) (s : PhantomTables)
    : Removed [blockTag c ownerFp hint] userId s (final (removeBlock c userId ownerFp hint s))
        ∧ (succeeds (removeBlock c userId ownerFp hint s) →
          (final (removeBlock c userId ownerFp hint s)).blocks.lookup (blockTag c ownerFp hint)
            ≠ some userId) := by
  rw [removeBlock]
  split
  . exact ⟨(SameRows.refl s).removed _ _, fun h => absurd h Bool.false_ne_true⟩
  . dsimp only
    rw [removeBlockTag]
    obtain ⟨rest, hsame, h | h⟩ :=
      tableStatement_cases (fun s => ((), s.deleteTag userId (blockTag c ownerFp hint))) s
    all_goals rw [h]
    . exact ⟨hsame.removed _ _, fun h => absurd h Bool.false_ne_true⟩
    . exact ⟨(hsame.removed _ _).trans (removed_deleteTag _), fun _ => not_own_deleteTag _ _ _⟩

def tagsOf (c : Crypto) (ownerFp : String) (hints : List String) : List String :=
  hints.map (blockTag c ownerFp)

theorem added_addBlocks (userId ownerFp : String) (hints : List String) (s : PhantomTables)
    : Added (tagsOf c ownerFp hints) userId s (final (hints.forM (addBlock c userId ownerFp) s)) := by
  induction hints generalizing s with
  | nil => exact (SameRows.refl s).added _ _
  | cons hint hints ih =>
    have hhead : Added (tagsOf c ownerFp (hint :: hints)) userId s
        (final (addBlock c userId ownerFp hint s)) :=
      (added_addBlock userId ownerFp hint s).mono (by simp [tagsOf])
    rw [List.forM, bind_run]
    split
    next _ s₁ h =>
      rw [h] at hhead
      exact hhead.trans ((ih s₁).mono (List.subset_cons_self _ _))
    next h => rwa [h] at hhead

theorem removed_removeBlocks (userId ownerFp : String) (hints : List String) (s : PhantomTables)
    : Removed (tagsOf c ownerFp hints) userId s (final (hints.forM (removeBlock c userId ownerFp) s))
        ∧ (succeeds (hints.forM (removeBlock c userId ownerFp) s) → ∀ tag ∈ tagsOf c ownerFp hints,
          (final (hints.forM (removeBlock c userId ownerFp) s)).blocks.lookup tag ≠ some userId) := by
  induction hints generalizing s with
  | nil => exact ⟨(SameRows.refl s).removed _ _, fun _ _ h => absurd h List.not_mem_nil⟩
  | cons hint hints ih =>
    obtain ⟨hhead, hgone⟩ := removed_removeBlock (c := c) userId ownerFp hint s
    have hhead : Removed (tagsOf c ownerFp (hint :: hints)) userId s
        (final (removeBlock c userId ownerFp hint s)) := hhead.mono (by simp [tagsOf])
    rw [List.forM, bind_run]
    split
    next _ s₁ h =>
      rw [h] at hhead hgone
      obtain ⟨htail, hrest⟩ := ih s₁
      refine ⟨hhead.trans (htail.mono (List.subset_cons_self _ _)), fun hok tag hmem => ?_⟩
      obtain rfl | hmem := List.mem_cons.1 hmem
      . -- the later removals leave a row of nobody else behind
        obtain hsame | ⟨-, -, hnone⟩ := htail.blocks (blockTag c ownerFp hint)
        . rw [hsame]
          exact hgone rfl
        . rw [hnone]
          exact nofun
      . exact hrest hok tag hmem
    next h =>
      rw [h] at hhead
      exact ⟨hhead, fun h => absurd h Bool.false_ne_true⟩

/--
The fingerprint of the key that an account has published.
-/
def PhantomTables.publishedFp (c : Crypto) (s : PhantomTables) (userId : String) : Option String :=
  (s.prekeys.lookup userId).bind fun bundle =>
    match fingerprintOfMlkemHex c bundle.mlkem768Pk with
    | .ok fp => fp
    | .error () => none

theorem ownerFingerprint_cases (c : Crypto) (userId : String) (s : PhantomTables)
    : ∃ rest, SameRows s rest
        ∧ ((∃ err, ownerFingerprint c userId s = .error err rest)
          ∨ ∃ ownerFp, s.publishedFp c userId = some ownerFp
            ∧ ownerFingerprint c userId s = .ok ownerFp rest) := by
  obtain ⟨rest, hsame, h | h⟩ := tableStatement_cases (fun s => (s.prekeys.lookup userId, s)) s
  all_goals
    refine ⟨rest, hsame, ?_⟩
    rw [ownerFingerprint, bind_run, getPrekeyByUserId, h]
  . exact .inl ⟨_, rfl⟩
  . rw [PhantomTables.publishedFp, ← hsame.prekeys]
    cases rest.prekeys.lookup userId with
    | none => exact .inl ⟨_, rfl⟩
    | some bundle =>
      rw [Option.bind_some]
      dsimp only
      cases fingerprintOfMlkemHex c bundle.mlkem768Pk with
      | error panic => exact .inl ⟨_, rfl⟩
      | ok decoded =>
        cases decoded with
        | none => exact .inl ⟨_, rfl⟩
        | some fp => exact .inr ⟨fp, rfl, rfl⟩

theorem updateBlocks_cases (c : Crypto) (userId : String) (add remove : List String) (s : PhantomTables)
    : SameRows s (final (updateBlocks c userId add remove s))
          ∧ succeeds (updateBlocks c userId add remove s) = false
        ∨ ∃ ownerFp s₁, s.publishedFp c userId = some ownerFp
          ∧ Added (tagsOf c ownerFp add) userId s s₁
          ∧ Removed (tagsOf c ownerFp remove) userId s₁ (final (updateBlocks c userId add remove s))
          ∧ (succeeds (updateBlocks c userId add remove s) → ∀ tag ∈ tagsOf c ownerFp remove,
            (final (updateBlocks c userId add remove s)).blocks.lookup tag ≠ some userId) := by
  obtain ⟨s₀, hsame, ⟨err, h⟩ | ⟨ownerFp, hfp, h⟩⟩ := ownerFingerprint_cases c userId s
  all_goals rw [updateBlocks, bind_run, h]
  . exact .inl ⟨hsame, rfl⟩
  . refine .inr ⟨ownerFp, ?_⟩
    have hadded := (hsame.added (tagsOf c ownerFp add) userId).trans (added_addBlocks userId ownerFp add s₀)
    dsimp only
    rw [bind_run]
    split
    next u s₁ hadd =>
      rw [hadd] at hadded
      obtain ⟨hremoved, hgone⟩ := removed_removeBlocks (c := c) userId ownerFp remove s₁
      refine ⟨s₁, hfp, hadded, ?_⟩
      rw [bind_run]
      split
      next u' s₂ hremove =>
        rw [hremove] at hremoved hgone
        obtain ⟨s₃, hsame₃, hlist | hlist⟩ := tableStatement_cases
          (fun s => ((s.blocks.entries.filter (·.2 = userId)).map (·.1), s)) s₂
        all_goals rw [listBlockTags, hlist]
        . exact ⟨hremoved.trans (hsame₃.removed _ _), fun h => absurd h Bool.false_ne_true⟩
        . refine ⟨hremoved.trans (hsame₃.removed _ _), fun _ tag hmem => ?_⟩
          rw [final, hsame₃.blocks]
          exact hgone rfl tag hmem
      next err s₂ hremove =>
        rw [hremove] at hremoved
        exact ⟨hremoved, fun h => absurd h Bool.false_ne_true⟩
    next err s₁ hadd =>
      rw [hadd] at hadded
      exact ⟨s₁, hfp, hadded, (SameRows.refl s₁).removed _ _, fun h => absurd h Bool.false_ne_true⟩

end Lqxp
