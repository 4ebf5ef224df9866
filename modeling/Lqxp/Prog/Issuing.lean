import Lqxp.Data.AssocMap
import Lqxp.Prog.Calls

/-!
This module contains calls that issue keys and take them back, over a store of the keys that can still be taken back,
each with the time until which it can be. No key is taken back more often than it was issued.
-/

namespace Issuing

variable {ι ο σ κ : Type}

/--
What a call does to the store.
-/
inductive Effect (κ : Type) where
  | issues (key : κ) (expires : Nat)
  | takes (key : κ) (now : Nat)
  | idle
  deriving DecidableEq

variable [DecidableEq κ]

/--
No key comes into the store, or gets another time.
-/
def Shrinks (m m' : AssocMap κ Nat) : Prop :=
  ∀ key expires, m'.lookup key = some expires → m.lookup key = some expires

/--
From the store `m` to the store `m'` happens no more than the effect says. A key is taken back while it is in the
store, and before its time is over.
-/
inductive Effect.Sound : Effect κ → AssocMap κ Nat → AssocMap κ Nat → Prop where
  | issues {key : κ} {expires : Nat} {m m' : AssocMap κ Nat}
      (h : ∀ key' expires', m'.lookup key' = some expires' →
        (key' = key ∧ expires' = expires) ∨ m.lookup key' = some expires')
    : Sound (.issues key expires) m m'
  | takes {key : κ} {now expires : Nat} {m m' : AssocMap κ Nat} (hlookup : m.lookup key = some expires)
      (hlive : now < expires) (hshrinks : Shrinks m m') (hgone : m'.lookup key = none)
    : Sound (.takes key now) m m'
  | idle {m m' : AssocMap κ Nat} (h : Shrinks m m') : Sound .idle m m'

def Effect.isIssue (key : κ) : Effect κ → Bool
  | .issues key' _ => key' = key
  | _ => false

def Effect.isTaking (key : κ) : Effect κ → Bool
  | .takes key' _ => key' = key
  | _ => false

section Logs

variable (effect : ι × ο → Effect κ)

def issued (key : κ) (log : List (ι × ο)) : Nat := log.countP fun entry => (effect entry).isIssue key

def taken (key : κ) (log : List (ι × ο)) : Nat := log.countP fun entry => (effect entry).isTaking key

/--
Each key that is taken back was issued before, and its time is not over.
-/
def Honoured (log : List (ι × ο)) : Prop :=
  ∀ before entry after key now, log = before ++ entry :: after → effect entry = .takes key now →
    ∃ issue ∈ before, ∃ expires, effect issue = .issues key expires ∧ now < expires

end Logs

variable {step : ι → σ → ο × σ} {effect : ι × ο → Effect κ} {store : σ → AssocMap κ Nat}

section Steps

variable {m m' : AssocMap κ Nat} {key : κ}

theorem Shrinks.lookup_eq_none (h : Shrinks m m') (hnone : m.lookup key = none) : m'.lookup key = none := by
  cases hkey : m'.lookup key with
  | none => rfl
  | some expires =>
    rw [h key expires hkey] at hnone
    contradiction

theorem Shrinks.isSome_le (h : Shrinks m m') : (m'.lookup key).isSome.toNat ≤ (m.lookup key).isSome.toNat := by
  cases hkey : m'.lookup key with
  | none => exact Nat.zero_le _
  | some expires => rw [h key expires hkey]

theorem Effect.Sound.count_le {e : Effect κ} (h : e.Sound m m') (key : κ)
    : (e.isTaking key).toNat + (m'.lookup key).isSome.toNat
        ≤ (e.isIssue key).toNat + (m.lookup key).isSome.toNat := by
  cases h with
  | @issues key' expires _ _ h =>
    simp only [isTaking, isIssue, Bool.toNat_false, Nat.zero_add]
    by_cases hsame : key' = key
    . have := (m'.lookup key).isSome.toNat_le
      simp only [hsame, decide_true, Bool.toNat_true]
      omega
    . cases hkey : m'.lookup key with
      | none => simp
      | some expires' =>
        rcases h key expires' hkey with ⟨rfl, -⟩ | hold
        . exact absurd rfl hsame
        . simp [hold]
  | @takes key' now expires _ _ hlookup hlive hshrinks hgone =>
    simp only [isTaking, isIssue, Bool.toNat_false, Nat.zero_add]
    by_cases hsame : key' = key
    . subst hsame
      simp [hlookup, hgone]
    . simpa [hsame] using hshrinks.isSome_le
  | idle h => simpa [isTaking, isIssue] using h.isSome_le

end Steps

variable (hsound : ∀ call s, (effect (call, (step call s).1)).Sound (store s) (store (step call s).2))
include hsound

theorem taken_add_le (calls : List ι) (s : σ) (key : κ)
    : taken effect key (Calls.play step calls s).1 + ((store (Calls.play step calls s).2).lookup key).isSome.toNat
        ≤ issued effect key (Calls.play step calls s).1 + ((store s).lookup key).isSome.toNat := by
  refine Calls.play_induction calls s
    (fun log s' => taken effect key log + ((store s').lookup key).isSome.toNat
      ≤ issued effect key log + ((store s).lookup key).isSome.toNat) (Nat.le_refl _) fun log s' call _ ih => ?_
  have hcount := (hsound call s').count_le key
  have hsplit (p : ι × ο → Bool) (entry : ι × ο)
      : (log ++ [entry]).countP p = log.countP p + (p entry).toNat := by
    rw [List.countP_append, List.countP_singleton]
    cases p entry <;> rfl
  simp only [taken, issued, hsplit] at ih ⊢
  omega

theorem taken_le (calls : List ι) {s : σ} (hempty : store s = ∅) (key : κ)
    : taken effect key (Calls.play step calls s).1 ≤ issued effect key (Calls.play step calls s).1 := by
  have h := taken_add_le hsound calls s key
  rw [hempty, AList.lookup_empty] at h
  exact Nat.le_trans (Nat.le_add_right _ _) h

theorem exists_issue (calls : List ι) {s : σ} (hempty : store s = ∅) {key : κ} {expires : Nat}
    (h : (store (Calls.play step calls s).2).lookup key = some expires)
    : ∃ issue ∈ (Calls.play step calls s).1, effect issue = .issues key expires := by
  revert key expires
  refine Calls.play_induction calls s
    (fun log s' => ∀ {key expires}, (store s').lookup key = some expires →
      ∃ issue ∈ log, effect issue = .issues key expires) (fun h => ?_) fun log s' call _ ih key expires h => ?_
  . rw [hempty, AList.lookup_empty] at h
    contradiction
  . have hold (h : (store s').lookup key = some expires)
        : ∃ issue ∈ log ++ [(call, (step call s').1)], effect issue = .issues key expires := by
      obtain ⟨issue, hmem, hissue⟩ := ih h
      exact ⟨issue, List.mem_append_left _ hmem, hissue⟩
    generalize heffect : effect (call, (step call s').1) = e at *
    have hstep := hsound call s'
    rw [heffect] at hstep
    cases hstep with
    | issues hissues =>
      rcases hissues key expires h with ⟨rfl, rfl⟩ | hthere
      . exact ⟨_, List.mem_append_right _ (List.mem_singleton_self _), heffect⟩
      . exact hold hthere
    | takes hlookup hlive hshrinks hgone => exact hold (hshrinks key expires h)
    | idle hshrinks => exact hold (hshrinks key expires h)

theorem honoured (calls : List ι) {s : σ} (hempty : store s = ∅)
    : Honoured effect (Calls.play step calls s).1 := by
  intro before entry after key now hlog htakes
  obtain ⟨calls₁, calls₂, rfl, rfl, hrest⟩ := Calls.exists_of_play_append hlog
  obtain ⟨call, rest, rfl, rfl, -⟩ := Calls.exists_of_play_cons hrest
  have hstep := hsound call (Calls.play step calls₁ s).2
  rw [htakes] at hstep
  cases hstep with
  | takes hlookup hlive hshrinks hgone =>
    obtain ⟨issue, hmem, hissue⟩ := exists_issue hsound calls₁ hempty hlookup
    exact ⟨issue, hmem, _, hissue, hlive⟩

end Issuing
