import Lqxp.Data.Fifo
import Lqxp.Prog.Calls
import Lqxp.Services.PrivacyPass
import Lqxp.Services.Phantom.Deposit

/-!
This module contains the store of the nonces with which passes are redeemed. It is bounded: when it is
full, the nonce that was reserved first makes room.
-/

namespace Lqxp

def maxNonceStoreEntries : Nat := 100000

def maxTokenResponseLen : Nat := 64 * 1024

inductive NonceState where
  | reserved
  | committed
  deriving DecidableEq

structure NonceEntry where
  state : NonceState
  seq : Nat
  deriving DecidableEq

def NonceEntry.commit (entry : NonceEntry) : NonceEntry := { entry with state := .committed }

structure MemoryNonceStore where
  entries : AssocMap String NonceEntry := ∅
  nextSeq : Nat := 0

abbrev NonceOrder := Fifo.MapOrder String NonceEntry

namespace MemoryNonceStore

/--
Reserve a nonce; `false` when it is in the store already. The counter wraps at 64 bits.
-/
def reserve (order : NonceOrder) (nonce : String) (store : MemoryNonceStore) : Bool × MemoryNonceStore :=
  if (store.entries.lookup nonce).isSome then
    (false, store)
  else
    let entries := Fifo.evict NonceEntry.seq maxNonceStoreEntries order store.entries.size store.entries
    (true,
      { entries := entries.insert nonce { state := .reserved, seq := store.nextSeq }
        nextSeq := (store.nextSeq + 1) % 2 ^ 64 })

def commit (nonce : String) (store : MemoryNonceStore) : Bool × MemoryNonceStore :=
  match store.entries.lookup nonce with
  | some { state := .reserved, .. } =>
    (true, { store with entries := store.entries.modify nonce NonceEntry.commit })
  | _ => (false, store)

def release (nonce : String) (store : MemoryNonceStore) : MemoryNonceStore :=
  match store.entries.lookup nonce with
  | some { state := .reserved, .. } => { store with entries := store.entries.erase nonce }
  | _ => store

end MemoryNonceStore

/--
The check of a pass against the keys of its issuer, which is not there yet.
-/
def verifyAmortizedBatchResponse (_tokenResponse : String) : ApiResult Unit :=
  .error (.badRequest "Privacy Pass redemption is not yet available.")

inductive NonceCall where
  | reserve (order : NonceOrder) (nonce : String)
  | commit (nonce : String)
  | release (nonce : String)

namespace NonceCall

/--
Run a call. The answer of a release, which has none in the source, is whether it took the nonce out.
-/
def run : NonceCall → MemoryNonceStore → Bool × MemoryNonceStore
  | reserve order nonce, store => store.reserve order nonce
  | commit nonce, store => store.commit nonce
  | release nonce, store =>
    let store' := store.release nonce
    ((store.entries.lookup nonce).isSome && (store'.entries.lookup nonce).isNone, store')

/--
The calls of the log that have reserved a nonce, committed it or taken it out.
-/
def reserves (nonce : String) : NonceCall × Bool → Bool
  | (reserve _ nonce', answer) => answer && nonce' = nonce
  | _ => false

def reservesOther (nonce : String) : NonceCall × Bool → Bool
  | (reserve _ nonce', answer) => answer && nonce' ≠ nonce
  | _ => false

def commits (nonce : String) : NonceCall × Bool → Bool
  | (commit nonce', answer) => answer && nonce' = nonce
  | _ => false

def releases (nonce : String) : NonceCall × Bool → Bool
  | (release nonce', answer) => answer && nonce' = nonce
  | _ => false

end NonceCall

/--
Redeem a pass. Its nonce is reserved before the check, and released again when the check fails.
-/
def redeemPassToken (c : Crypto) (order : NonceOrder) (now : Nat) (tokenIdBits : BitVec 128)
    (tokenResponse nonce : String) (store : MemoryNonceStore) : Gated String × MemoryNonceStore :=
  if Text.len nonce ≠ 32 || !nonce.toList.all isHexDigit then
    (throw (.badRequest "Malformed redemption nonce."), store)
  else if Text.len tokenResponse = 0 || maxTokenResponseLen < Text.len tokenResponse then
    (throw (.badRequest "Token response out of bounds."), store)
  else
    match store.reserve order nonce with
    | (false, store) => (throw (.badRequest "Redemption nonce already used."), store)
    | (true, store) =>
      match verifyAmortizedBatchResponse tokenResponse with
      | .error err => (throw err, store.release nonce)
      | .ok () => (issueDepositToken c now tokenIdBits, (store.commit nonce).2)

namespace MemoryNonceStore

/--
What holds of the store as long as the counter has not wrapped: it is within its bound, and the entries
carry the numbers under which they were reserved.
-/
structure Sound (store : MemoryNonceStore) : Prop where
  size_le : store.entries.size ≤ maxNonceStoreEntries
  numbered : Fifo.Numbered NonceEntry.seq store.nextSeq store.entries

section Steps

variable {store : MemoryNonceStore} {order : NonceOrder} {nonce : String}

theorem reserve_held (h : (store.entries.lookup nonce).isSome) : store.reserve order nonce = (false, store) := by
  rw [reserve, if_pos h]

theorem reserve_free (h : store.entries.lookup nonce = none)
    : store.reserve order nonce
        = (true,
            { entries := (Fifo.evict NonceEntry.seq maxNonceStoreEntries order store.entries.size
                store.entries).insert nonce { state := .reserved, seq := store.nextSeq }
              nextSeq := (store.nextSeq + 1) % 2 ^ 64 }) := by
  rw [reserve, if_neg (by simp [h])]

theorem commit_cases (nonce : String) (store : MemoryNonceStore)
    : (∃ seq, store.entries.lookup nonce = some { state := .reserved, seq } ∧ store.commit nonce
          = (true, { store with entries := store.entries.modify nonce NonceEntry.commit }))
      ∨ ((∀ seq, store.entries.lookup nonce ≠ some { state := .reserved, seq })
          ∧ store.commit nonce = (false, store)) := by
  rw [commit]
  split
  next seq heq => exact .inl ⟨seq, heq, rfl⟩
  next hnot => exact .inr ⟨fun seq => hnot seq, rfl⟩

theorem release_cases (nonce : String) (store : MemoryNonceStore)
    : (∃ seq, store.entries.lookup nonce = some { state := .reserved, seq }
          ∧ (NonceCall.release nonce).run store = (true, { store with entries := store.entries.erase nonce }))
      ∨ ((∀ seq, store.entries.lookup nonce ≠ some { state := .reserved, seq })
          ∧ (NonceCall.release nonce).run store = (false, store)) := by
  rw [NonceCall.run, release]
  split
  next seq heq => exact .inl ⟨seq, heq, by simp [heq]⟩
  next hnot =>
    refine .inr ⟨fun seq => hnot seq, ?_⟩
    cases store.entries.lookup nonce <;> rfl

end Steps

section Runs

open NonceCall

variable {store : MemoryNonceStore}

theorem Sound.empty : Sound {} where
  size_le := Nat.zero_le _
  numbered := .empty

theorem Sound.run (h : Sound store) (hnext : store.nextSeq + 1 < 2 ^ 64) (call : NonceCall)
    : Sound (call.run store).2 ∧ (call.run store).2.nextSeq ≤ store.nextSeq + 1 := by
  cases call with
  | reserve order nonce =>
    rw [NonceCall.run]
    cases hheld : store.entries.lookup nonce with
    | some entry =>
      rw [reserve_held (by simp [hheld])]
      exact ⟨h, Nat.le_succ _⟩
    | none =>
      rw [reserve_free hheld]
      have hwrap : (store.nextSeq + 1) % 2 ^ 64 = store.nextSeq + 1 := Nat.mod_eq_of_lt hnext
      refine ⟨⟨?_, ?_⟩, Nat.le_of_eq hwrap⟩
      . have hsize : (Fifo.evict NonceEntry.seq maxNonceStoreEntries order store.entries.size store.entries).size
            < maxNonceStoreEntries := Fifo.size_evict_lt (by decide) (Nat.le_refl store.entries.size)
        exact Nat.le_trans (Fifo.size_insert_le _ _ _) hsize
      . simp only [hwrap]
        exact h.numbered.evict.insert rfl
  | commit nonce =>
    rw [NonceCall.run]
    rcases commit_cases nonce store with ⟨seq, -, hcommit⟩ | ⟨-, hcommit⟩
    . rw [hcommit]
      refine ⟨⟨?_, h.numbered.modify fun _ => rfl⟩, Nat.le_succ _⟩
      rw [Fifo.size_modify]
      exact h.size_le
    . rw [hcommit]
      exact ⟨h, Nat.le_succ _⟩
  | release nonce =>
    rcases release_cases nonce store with ⟨seq, hlookup, hrelease⟩ | ⟨-, hrelease⟩
    . rw [hrelease]
      have hsize := Fifo.size_erase hlookup
      have hle := h.size_le
      refine ⟨⟨?_, h.numbered.erase nonce⟩, Nat.le_succ _⟩
      show AssocMap.size (store.entries.erase nonce) ≤ _
      omega
    . rw [hrelease]
      exact ⟨h, Nat.le_succ _⟩

theorem Sound.play (h : Sound store) (calls : List NonceCall) (hfew : store.nextSeq + calls.length < 2 ^ 64)
    : Sound (Calls.play NonceCall.run calls store).2
        ∧ (Calls.play NonceCall.run calls store).2.nextSeq ≤ store.nextSeq + calls.length := by
  have hrun := @Calls.play_induction _ _ _ NonceCall.run calls store
    (fun log s => store.nextSeq + log.length < 2 ^ 64 → Sound s ∧ s.nextSeq ≤ store.nextSeq + log.length)
    (fun _ => ⟨h, Nat.le_refl _⟩) ?step
  case step =>
    intro log s call _ hinv hlength
    rw [List.length_append, List.length_singleton] at hlength ⊢
    obtain ⟨hsound, hnext⟩ := hinv (by omega)
    obtain ⟨hsound', hnext'⟩ := hsound.run (by omega) call
    exact ⟨hsound', by omega⟩
  rw [Calls.length_play] at hrun
  exact hrun hfew

section Protection

/--
The nonce is in the store, and fewer than `count` entries came after it; or `count` has reached the bound.
-/
def Protects (nonce : String) (count : Nat) (store : MemoryNonceStore) : Prop :=
  maxNonceStoreEntries ≤ count
    ∨ ∃ entry, store.entries.lookup nonce = some entry
        ∧ Fifo.newer NonceEntry.seq entry.seq store.entries ≤ count

theorem protects_reserve {order : NonceOrder} {nonce : String} (h : Sound store)
    (hanswer : (store.reserve order nonce).1 = true) : Protects nonce 0 (store.reserve order nonce).2 := by
  cases hheld : store.entries.lookup nonce with
  | some entry =>
    rw [reserve_held (by simp [hheld])] at hanswer
    contradiction
  | none =>
    rw [reserve_free hheld]
    refine .inr ⟨_, AList.lookup_insert _, Nat.le_of_eq ?_⟩
    exact Fifo.newer_insert_eq_zero h.numbered.evict rfl

theorem protects_of_reserves {nonce : String} {call : NonceCall} (h : Sound store)
    (hreserves : reserves nonce (call, (call.run store).1)) : Protects nonce 0 (call.run store).2 := by
  cases call with
  | reserve order nonce' =>
    simp only [reserves, Bool.and_eq_true, decide_eq_true_eq] at hreserves
    obtain ⟨hanswer, rfl⟩ := hreserves
    exact protects_reserve h hanswer
  | _ => contradiction

theorem Protects.le_of_reserves {nonce : String} {count : Nat} {call : NonceCall}
    (hprotects : Protects nonce count store) (hreserves : reserves nonce (call, (call.run store).1))
    : maxNonceStoreEntries ≤ count := by
  rcases hprotects with hover | ⟨entry, hentry, -⟩
  . exact hover
  . cases call with
    | reserve order nonce' =>
      simp only [reserves, Bool.and_eq_true, decide_eq_true_eq] at hreserves
      obtain ⟨hanswer, rfl⟩ := hreserves
      rw [NonceCall.run, reserve_held (by rw [hentry]; rfl)] at hanswer
      contradiction
    | _ => contradiction

theorem Protects.reserve_other {order : NonceOrder} {nonce nonce' : String} {count : Nat} (h : Sound store)
    (hprotects : Protects nonce count store) (hne : nonce' ≠ nonce)
    (hanswer : (store.reserve order nonce').1 = true)
    : Protects nonce (count + 1) (store.reserve order nonce').2 := by
  rcases hprotects with hover | ⟨entry, hentry, hnewer⟩
  . exact .inl (Nat.le_succ_of_le hover)
  . cases hheld : store.entries.lookup nonce' with
    | some entry' =>
      rw [reserve_held (by simp [hheld])] at hanswer
      contradiction
    | none =>
      rw [reserve_free hheld]
      rcases Nat.lt_or_eq_of_le h.size_le with hroom | hfull
      . rw [Fifo.evict_of_lt hroom]
        refine .inr ⟨entry, ?_, Nat.le_trans (Fifo.newer_insert_le _ _ _ _) (Nat.succ_le_succ hnewer)⟩
        rw [AssocMap.lookup_insert, if_neg hne.symm, hentry]
      . obtain ⟨oldest, first, hfirst, hleast, hevict⟩ :=
          @Fifo.evict_full _ _ NonceEntry.seq _ _ order _ (by decide) hfull
        rw [hevict]
        by_cases hsame : oldest = nonce
        . -- the nonce itself makes room: all the others came after it, and now one more
          subst hsame
          obtain rfl := Option.some.inj (hentry.symm.trans hfirst)
          have hothers := Fifo.newer_oldest h.numbered hentry hleast
          exact .inl (by omega)
        . refine .inr ⟨entry, ?_, ?_⟩
          . rw [AssocMap.lookup_insert, if_neg hne.symm, AssocMap.lookup_erase, if_neg (Ne.symm hsame), hentry]
          . have herase := @Fifo.newer_erase_le _ _ NonceEntry.seq _ oldest store.entries entry.seq
            exact Nat.le_trans (Fifo.newer_insert_le _ _ _ _) (by omega)

theorem Protects.commit {nonce nonce' : String} {count : Nat} (hprotects : Protects nonce count store)
    : Protects nonce count (store.commit nonce').2 := by
  rcases hprotects with hover | ⟨entry, hentry, hnewer⟩
  . exact .inl hover
  . rcases commit_cases nonce' store with ⟨seq, -, hcommit⟩ | ⟨-, hcommit⟩
    . rw [hcommit]
      rw [← Fifo.newer_modify (f := NonceEntry.commit) (fun _ => rfl) nonce'] at hnewer
      by_cases hsame : nonce = nonce'
      . refine .inr ⟨entry.commit, ?_, hnewer⟩
        rw [AssocMap.lookup_modify, if_pos hsame, hentry]
        rfl
      . refine .inr ⟨entry, ?_, hnewer⟩
        rw [AssocMap.lookup_modify, if_neg hsame, hentry]
    . rw [hcommit]
      exact .inr ⟨entry, hentry, hnewer⟩

theorem Protects.release {nonce nonce' : String} {count : Nat} (hprotects : Protects nonce count store)
    (hrelease : ¬ releases nonce (.release nonce', ((NonceCall.release nonce').run store).1))
    : Protects nonce count ((NonceCall.release nonce').run store).2 := by
  rcases hprotects with hover | ⟨entry, hentry, hnewer⟩
  . exact .inl hover
  . rcases release_cases nonce' store with ⟨seq, -, hdone⟩ | ⟨-, hdone⟩
    . rw [hdone] at hrelease ⊢
      have hne : nonce ≠ nonce' := by
        rintro rfl
        simp [releases] at hrelease
      refine .inr ⟨entry, ?_, Nat.le_trans (Fifo.newer_erase_le _ _ _) hnewer⟩
      rw [AssocMap.lookup_erase, if_neg hne, hentry]
    . rw [hdone]
      exact .inr ⟨entry, hentry, hnewer⟩

theorem Protects.run {nonce : String} {count : Nat} (h : Sound store) (hprotects : Protects nonce count store)
    (call : NonceCall) (hrelease : ¬ releases nonce (call, (call.run store).1))
    : Protects nonce (count + [(call, (call.run store).1)].countP (reservesOther nonce)) (call.run store).2 := by
  rw [List.countP_singleton]
  cases call with
  | reserve order nonce' =>
    simp only [reservesOther, NonceCall.run, Bool.and_eq_true, decide_eq_true_eq]
    split
    next hother => exact hprotects.reserve_other h hother.2 hother.1
    next hsame =>
      rcases hprotects with hover | ⟨entry, hentry, hnewer⟩
      . exact .inl hover
      . have hfails : store.reserve order nonce' = (false, store) := by
          by_cases heq : nonce' = nonce
          . rw [heq]
            exact reserve_held (by rw [hentry]; rfl)
          . cases hheld : store.entries.lookup nonce' with
            | some entry' => exact reserve_held (by simp [hheld])
            | none => exact absurd ⟨by rw [reserve_free hheld], heq⟩ hsame
        rw [hfails]
        exact .inr ⟨entry, hentry, hnewer⟩
  | commit nonce' => exact hprotects.commit
  | release nonce' => exact hprotects.release hrelease

theorem Protects.play {nonce : String} {count : Nat} (h : Sound store) (hprotects : Protects nonce count store)
    (calls : List NonceCall) (hfew : store.nextSeq + calls.length < 2 ^ 64)
    (hheld : ∀ entry ∈ (Calls.play NonceCall.run calls store).1, ¬ releases nonce entry)
    : Protects nonce (count + (Calls.play NonceCall.run calls store).1.countP (reservesOther nonce))
        (Calls.play NonceCall.run calls store).2 := by
  induction calls generalizing store count with
  | nil => exact hprotects
  | cons call calls ih =>
    rw [List.length_cons] at hfew
    rw [Calls.play_cons, List.forall_mem_cons] at hheld
    obtain ⟨hsound, hnext⟩ := h.run (by omega) call
    have hstep := hprotects.run h call hheld.1
    have hrest := ih hsound hstep (by omega) hheld.2
    rw [Calls.play_cons, List.countP_cons, Nat.add_comm (List.countP _ _)]
    rw [List.countP_singleton, Nat.add_assoc] at hrest
    exact hrest

end Protection

section Commits

theorem reserved_run {nonce : String} {seq : Nat} (call : NonceCall)
    (h : (call.run store).2.entries.lookup nonce = some { state := .reserved, seq })
    : reserves nonce (call, (call.run store).1)
      ∨ (store.entries.lookup nonce = some { state := .reserved, seq }
          ∧ ¬ commits nonce (call, (call.run store).1)) := by
  cases call with
  | reserve order nonce' =>
    rw [NonceCall.run] at h ⊢
    cases hheld : store.entries.lookup nonce' with
    | some entry =>
      rw [reserve_held (by rw [hheld]; rfl)] at h
      exact .inr ⟨h, Bool.false_ne_true⟩
    | none =>
      rw [reserve_free hheld] at h ⊢
      by_cases hsame : nonce' = nonce
      . exact .inl (by simp [reserves, hsame])
      . rw [AssocMap.lookup_insert, if_neg (Ne.symm hsame)] at h
        exact .inr ⟨Fifo.lookup_of_evict h, Bool.false_ne_true⟩
  | commit nonce' =>
    rw [NonceCall.run] at h ⊢
    rcases commit_cases nonce' store with ⟨seq', -, hcommit⟩ | ⟨-, hcommit⟩
    . rw [hcommit] at h ⊢
      rw [AssocMap.lookup_modify] at h
      split at h
      next hsame =>
        obtain ⟨entry, -, hentry⟩ := Option.map_eq_some_iff.1 h
        cases hentry
      next hother =>
        refine .inr ⟨h, ?_⟩
        simp [commits, Ne.symm hother]
    . rw [hcommit] at h ⊢
      exact .inr ⟨h, Bool.false_ne_true⟩
  | release nonce' =>
    rcases release_cases nonce' store with ⟨seq', -, hdone⟩ | ⟨-, hdone⟩
    . rw [hdone] at h ⊢
      rw [AssocMap.lookup_erase] at h
      split at h
      . contradiction
      . exact .inr ⟨h, Bool.false_ne_true⟩
    . rw [hdone] at h ⊢
      exact .inr ⟨h, Bool.false_ne_true⟩

theorem exists_reserves_of_reserved {nonce : String} (calls : List NonceCall)
    : ∀ seq, (Calls.play NonceCall.run calls {}).2.entries.lookup nonce = some { state := .reserved, seq } →
      ∃ before entry after, (Calls.play NonceCall.run calls {}).1 = before ++ entry :: after
        ∧ reserves nonce entry ∧ ∀ later ∈ after, ¬ commits nonce later := by
  refine @Calls.play_induction _ _ _ NonceCall.run calls {}
    (fun log s => ∀ seq, s.entries.lookup nonce = some { state := .reserved, seq } →
      ∃ before entry after, log = before ++ entry :: after
        ∧ reserves nonce entry ∧ ∀ later ∈ after, ¬ commits nonce later) ?nil ?step
  case nil =>
    intro seq hreserved
    simp at hreserved
  case step =>
    intro log s call _ hinv seq hreserved
    rcases reserved_run call hreserved with hnow | ⟨hbefore, hcommits⟩
    . exact ⟨log, _, [], rfl, hnow, by simp⟩
    . obtain ⟨before, entry, after, rfl, hentry, hafter⟩ := hinv seq hbefore
      refine ⟨before, entry, after ++ [(call, (call.run s).1)], by simp, hentry, ?_⟩
      intro later hlater
      rcases List.mem_append.1 hlater with hlater | hlater
      . exact hafter later hlater
      . rw [List.mem_singleton.1 hlater]
        exact hcommits

theorem reserved_of_commits {nonce : String} {call : NonceCall}
    (h : commits nonce (call, (call.run store).1))
    : ∃ seq, store.entries.lookup nonce = some { state := .reserved, seq } := by
  cases call with
  | commit nonce' =>
    rw [NonceCall.run] at h
    rcases commit_cases nonce' store with ⟨seq, hlookup, hcommit⟩ | ⟨-, hcommit⟩
    . rw [hcommit] at h
      obtain rfl : nonce' = nonce := by simpa [commits] using h
      exact ⟨seq, hlookup⟩
    . rw [hcommit] at h
      contradiction
  | _ => contradiction

theorem lookup_release {nonce nonce' : String} {entry : NonceEntry}
    (h : store.entries.lookup nonce = some entry) (hcommitted : entry.state = .committed)
    : (store.release nonce').entries.lookup nonce = some entry := by
  rw [release]
  split
  next seq heq =>
    show (store.entries.erase nonce').lookup nonce = _
    rw [AssocMap.lookup_erase]
    split
    next hsame =>
      subst hsame
      obtain rfl := Option.some.inj (h.symm.trans heq)
      contradiction
    next => exact h
  next => exact h

end Commits

/--
Every run of fewer than 2 ^ 64 calls keeps within the bound, protects what it has reserved until as many
others have been reserved as there is room for, commits at most once what is reserved once, and releases
nothing that is committed.
-/
theorem nonceStore_run (calls : List NonceCall) (hfew : calls.length < 2 ^ 64)
    (log : List (NonceCall × Bool)) (store : MemoryNonceStore)
    (hplay : Calls.play NonceCall.run calls {} = (log, store))
    : store.entries.size ≤ maxNonceStoreEntries
      ∧ (∀ nonce before first between second after, log = before ++ first :: (between ++ second :: after) →
          reserves nonce first → reserves nonce second → (∀ entry ∈ between, ¬ releases nonce entry) →
          maxNonceStoreEntries ≤ between.countP (reservesOther nonce))
      ∧ (∀ nonce before committed after, log = before ++ committed :: after → commits nonce committed →
          ∃ start entry since, before = start ++ entry :: since
            ∧ reserves nonce entry ∧ ∀ later ∈ since, ¬ commits nonce later)
      ∧ ∀ nonce nonce' entry, store.entries.lookup nonce = some entry → entry.state = .committed →
          (store.release nonce').entries.lookup nonce = some entry := by
  obtain rfl : (Calls.play NonceCall.run calls {}).1 = log := by rw [hplay]
  obtain rfl : (Calls.play NonceCall.run calls {}).2 = store := by rw [hplay]
  have hzero : ({} : MemoryNonceStore).nextSeq = 0 := rfl
  refine ⟨(Sound.empty.play calls (by omega)).1.size_le, ?protects, ?once, fun _ _ _ => lookup_release⟩
  case protects =>
    intro nonce before first between second after hlog hfirst hsecond hheld
    obtain ⟨calls, rest, rfl, -, hrest⟩ := Calls.exists_of_play_append hlog
    obtain ⟨call, rest, rfl, rfl, hafter⟩ := Calls.exists_of_play_cons hrest
    obtain ⟨calls', rest, rfl, rfl, hlast⟩ := Calls.exists_of_play_append hafter
    obtain ⟨call', rest, rfl, rfl, -⟩ := Calls.exists_of_play_cons hlast
    simp only [List.length_append, List.length_cons] at hfew
    obtain ⟨hsound, hnext⟩ := Sound.empty.play calls (by omega)
    obtain ⟨hsound', hnext'⟩ := hsound.run (by omega) call
    have hprotects := (protects_of_reserves hsound hfirst).play hsound' calls' (by omega) hheld
    rw [Nat.zero_add] at hprotects
    exact hprotects.le_of_reserves hsecond
  case once =>
    intro nonce before committed after hlog hcommits
    obtain ⟨calls, rest, rfl, rfl, hrest⟩ := Calls.exists_of_play_append hlog
    obtain ⟨call, rest, rfl, rfl, -⟩ := Calls.exists_of_play_cons hrest
    obtain ⟨seq, hreserved⟩ := reserved_of_commits hcommits
    exact exists_reserves_of_reserved calls seq hreserved

/--
Reserve a nonce twice, commit it twice, and try to release it.
-/
def nonceCalls : List NonceCall :=
  [.reserve .insertion "a", .reserve .insertion "a", .commit "a", .commit "a", .release "a"]

theorem nonceStore_run_nonceCalls
    : (Calls.play NonceCall.run nonceCalls {}).1.map (·.2) = [true, false, true, false, false]
      ∧ (Calls.play NonceCall.run nonceCalls {}).2.entries.size ≤ maxNonceStoreEntries :=
  ⟨by decide, (nonceStore_run nonceCalls (by decide) _ _ rfl).1⟩

end Runs

end MemoryNonceStore

theorem redeemPassToken_fails (c : Crypto) (order : NonceOrder) (now : Nat) (tokenIdBits : BitVec 128)
    (tokenResponse nonce : String) (store : MemoryNonceStore)
    : (∃ err, (redeemPassToken c order now tokenIdBits tokenResponse nonce store).1 = throw err)
      ∧ ∃ calls, calls <+: [.reserve order nonce, .release nonce]
          ∧ (redeemPassToken c order now tokenIdBits tokenResponse nonce store).2
              = (Calls.play NonceCall.run calls store).2 := by
  rw [redeemPassToken]
  split
  . exact ⟨⟨_, rfl⟩, [], List.nil_prefix, rfl⟩
  . split
    . exact ⟨⟨_, rfl⟩, [], List.nil_prefix, rfl⟩
    . cases hreserve : store.reserve order nonce with
      | mk answer store' =>
        cases answer with
        | false =>
          refine ⟨⟨_, rfl⟩, [.reserve order nonce], ⟨_, rfl⟩, ?_⟩
          rw [Calls.play_cons, NonceCall.run, hreserve]
          rfl
        | true =>
          refine ⟨⟨_, rfl⟩, _, List.prefix_rfl, ?_⟩
          rw [Calls.play_cons, NonceCall.run, hreserve]
          rfl

end Lqxp
